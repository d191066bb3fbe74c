import TextAdventure.Proofs.Sound

/-!
# Whatever was read, the player can be saved

The content of an adventure may change while it is played, and a save may hold anything. Still the
documents that a library holds were read from texts (`Library.FromTexts`), so their scripts and
flags are values of texts; and so are the flags of a save that can be read. Hence the player of
every session can be saved and read back (`Session.storable_of_possible`).
-/

namespace TextAdventure

/-- A document that a text says. -/
def Document.Said {α : Type} [Document α] (doc : α) : Prop :=
  ∃ text, Document.ofText? text = some doc

namespace Library

variable {α : Type} [Document α] {source : Source} {l : Library}

/-- The documents with scripts or flags that a library holds were read from texts, whichever. -/
structure FromTexts (l : Library) : Prop where
  /-- The world was. -/
  world : ∀ w, l.world = some w → Document.Said w
  /-- The rooms were. -/
  rooms : ∀ id r, l.rooms.get? id = some r → Document.Said r
  /-- The items were. -/
  items : ∀ id i, l.items.get? id = some i → Document.Said i
  /-- The fixtures were. -/
  fixtures : ∀ id f, l.fixtures.get? id = some f → Document.Said f

/-- A library without documents has read nothing else. -/
theorem fromTexts_empty (worldFile : String) : (empty worldFile).FromTexts where
  world _ h := by cases h
  rooms _ _ h := by cases h
  items _ _ h := by cases h
  fixtures _ _ h := by cases h

/-- A document that is looked up was read from a text if those on the shelf were, and so were those
on the shelf afterwards. -/
theorem said_of_look {kind : String} {shelf : Table α}
    (h : ∀ id doc, shelf.get? id = some doc → Document.Said doc) (id : String) :
    (∀ doc, (look source kind shelf id).1 = .ok doc → Document.Said doc) ∧
      ∀ id' doc, (look source kind shelf id).2.1.get? id' = some doc → Document.Said doc := by
  -- A document on the shelf was read before; any other one is read now.
  cases hg : shelf.get? id with
  | some found =>
    have hl : look source kind shelf id = (.ok found, shelf, []) := by
      unfold look
      rw [hg]
    rw [hl]
    refine ⟨fun doc hdoc => ?_, h⟩
    cases hdoc
    exact h id found hg
  | none =>
    obtain ⟨hread, hshelf⟩ :=
      (look_of_get?_none hg : (look source kind shelf id).1 = read source kind id ∧ _)
    have hsaid : ∀ doc : α, read source kind id = .ok doc → Document.Said doc := fun doc hdoc =>
      let ⟨text, _, htext⟩ := exists_text_of_read hdoc
      ⟨text, htext⟩
    refine ⟨fun doc hdoc => hsaid doc (hread ▸ hdoc), fun id' doc hdoc => ?_⟩
    -- What was read is put on the shelf, and a failure leaves the shelf as it is.
    rcases hshelf with ⟨found, hfound, hs⟩ | ⟨e, -, hs⟩
    · rw [hs, Table.get?_insert] at hdoc
      split_ifs at hdoc with hid
      · cases hdoc
        exact hsaid _ hfound
      · exact h id' doc hdoc
    · rw [hs] at hdoc
      exact h id' doc hdoc

/-- The world of such a library was read from a text, and the library is one afterwards. -/
theorem FromTexts.getWorld (h : l.FromTexts) :
    (∀ w, (getWorld source l).result = .ok w → Document.Said w) ∧
      (Library.getWorld source l).library.FromTexts := by
  unfold Library.getWorld
  cases hw : l.world with
  | some w =>
    refine ⟨fun w' hw' => ?_, h⟩
    cases hw'
    exact h.world w hw
  | none =>
    cases hf : (fetch source l.worldFile : Except Failure World) with
    | ok w =>
      -- The world was fetched as a text and read from it.
      have hsaid : Document.Said w := by
        unfold fetch at hf
        split at hf
        · next text _ =>
          split at hf
          · next hdoc =>
            cases hf
            exact ⟨text, hdoc⟩
          · cases hf
        · cases hf
      -- It is on the shelf now, and was handed out.
      refine ⟨fun w' hw' => ?_, { h with world := fun w' hw' => ?_ }⟩
      · cases hw'
        exact hsaid
      · cases hw'
        exact hsaid
    | error e => exact ⟨fun _ hw' => (by cases hw'), h⟩

/-- A room of such a library was read from a text, and the library is one afterwards. -/
theorem FromTexts.getRoom (h : l.FromTexts) (id : String) :
    (∀ r, (getRoom source id l).result = .ok r → Document.Said r) ∧
      (Library.getRoom source id l).library.FromTexts :=
  ⟨(said_of_look h.rooms id).1, { h with rooms := (said_of_look h.rooms id).2 }⟩

/-- An item of such a library was read from a text, and the library is one afterwards. -/
theorem FromTexts.getItem (h : l.FromTexts) (id : String) :
    (∀ i, (getItem source id l).result = .ok i → Document.Said i) ∧
      (Library.getItem source id l).library.FromTexts :=
  ⟨(said_of_look h.items id).1, { h with items := (said_of_look h.items id).2 }⟩

/-- A fixture of such a library was read from a text, and the library is one afterwards. -/
theorem FromTexts.getFixture (h : l.FromTexts) (id : String) :
    (∀ f, (getFixture source id l).result = .ok f → Document.Said f) ∧
      (Library.getFixture source id l).library.FromTexts :=
  ⟨(said_of_look h.fixtures id).1, { h with fixtures := (said_of_look h.fixtures id).2 }⟩

/-- A library is such a one after it was asked for an enemy. -/
theorem FromTexts.getEnemy (h : l.FromTexts) (id : String) :
    (Library.getEnemy source id l).library.FromTexts := ⟨h.world, h.rooms, h.items, h.fixtures⟩

/-- A library is such a one after it was asked for a picture. -/
theorem FromTexts.getArt (h : l.FromTexts) (path : String) :
    (Library.getArt source path l).library.FromTexts := by
  unfold Library.getArt
  split
  · exact h
  · split
    · exact h
    · split
      · exact ⟨h.world, h.rooms, h.items, h.fixtures⟩
      · exact h

end Library

open Promise (invariant)

/-- A question keeps what is known of a state and of its library if the library knows it of itself
and of its answer. -/
theorem Act.ask_fromTexts {α : Type} {request : Source → Library → Library.Answer α}
    {inv : Play → Prop} {P : α → Prop}
    (hanswered : ∀ p, inv p → inv (p.answered (request p.source p.library)))
    (hrequest : ∀ source l, l.FromTexts →
      (∀ a, (request source l).result = .ok a → P a) ∧
        (request source l).library.FromTexts) :
    (ask request).Yields (invariant fun p => p.library.FromTexts ∧ inv p) P := by
  intro p ⟨hlibrary, hp⟩
  obtain ⟨hanswer, hafter⟩ := hrequest p.source p.library hlibrary
  rw [ends_ask]
  exact ⟨fun a ha => ⟨⟨hafter, hanswered p hp⟩, hanswer a ha⟩, fun _ _ => ⟨hafter, hanswered p hp⟩⟩

/-- Play keeps what is known of players who can be saved, over any content: the library goes on
holding documents that were read from texts, and these have good scripts. -/
theorem Play.upkeep_fromTexts {P : Player → Prop} {inv : Play → Prop}
    (hupheld : Player.Upheld P Step.Storable) (hplayer : ∀ {p}, inv p → P p.player)
    (hbeside : ∀ {p q : Play}, inv p → P q.player → p.Beside q → inv q)
    (hanswered : ∀ {α : Type} (answer : Library.Answer α) {p : Play}, inv p →
      inv (p.answered answer)) :
    Upkeep (fun p => p.library.FromTexts ∧ inv p) P Step.Storable where
  upheld := hupheld
  player hp := hplayer hp.2
  beside hp hq h := ⟨h.library ▸ hp.1, hbeside hp.2 hq h⟩
  world := (Act.ask_fromTexts (fun _ hp => hanswered _ hp) fun _ _ hl => hl.getWorld).keeps
  enemy id := (Act.ask_fromTexts (P := fun _ => True) (fun _ hp => hanswered _ hp)
    fun _ _ hl => ⟨fun _ _ => trivial, hl.getEnemy id⟩).keeps
  art path := (Act.ask_fromTexts (P := fun _ => True) (fun _ hp => hanswered _ hp)
    fun _ _ hl => ⟨fun _ _ => trivial, hl.getArt path⟩).keeps
  room id := Act.ask_fromTexts (fun _ hp => hanswered _ hp) fun _ _ hl =>
    ⟨fun r hr => let ⟨_, htext⟩ := (hl.getRoom id).1 r hr
      Room.storable_of_ofText? htext, (hl.getRoom id).2⟩
  item id := Act.ask_fromTexts (fun _ hp => hanswered _ hp) fun _ _ hl =>
    ⟨fun i hi => let ⟨_, htext⟩ := (hl.getItem id).1 i hi
      Item.storable_of_ofText? htext, (hl.getItem id).2⟩
  fixture id := Act.ask_fromTexts (fun _ hp => hanswered _ hp) fun _ _ hl =>
    ⟨fun f hf => let ⟨_, htext⟩ := (hl.getFixture id).1 f hf
      Fixture.storable_of_ofText? htext, (hl.getFixture id).2⟩
  branch hs := by
    cases hs with
    | branch _ _ hmatch hotherwise => exact ⟨hmatch, hotherwise⟩
    | other _ hbranch => exact absurd rfl (hbranch _ _ _ _)

namespace SaveRecord

/-- The flags that a save says are values of texts, and nest no deeper than those of a player who
can be saved. -/
theorem flags_of_ofBytes? {bytes : ByteArray} {r : SaveRecord} {flags : Table Json}
    (h : ofBytes? bytes = some r) (hflags : r.flags = some flags) :
    ∀ e ∈ flags.entries, e.2.Sorted ∧ e.2.Fits 125 := by
  simp only [ofBytes?, Option.bind_eq_bind, Option.bind_eq_some_iff] at h
  obtain ⟨text, -, v, hv, hrecord⟩ := h
  obtain ⟨t, ht, htv⟩ := Option.bind_eq_some_iff.mp hv
  obtain ⟨-, hprintable, hdepth⟩ := (Json.Tree.fits_of_ofText? ht).toJson? htv
  have hfits := Json.Tree.fits_toTree hprintable hdepth
  -- The flags are a table in a field of the object, so two levels inside it.
  cases v with
  | object fields =>
    replace hrecord : ofRecord? ⟨Json.fieldsToTree fields⟩ = some r := hrecord
    simp only [ofRecord?, Option.bind_eq_bind, Option.bind_eq_some_iff] at hrecord
    obtain ⟨_, -, _, -, flags', hread, _, -, _, -, _, -, _, -, _, -, _, -, hr⟩ := hrecord
    cases hr
    replace hflags : flags' = some flags := hflags
    intro e he
    rcases Json.Record.exists_of_among hread with rfl | ⟨f, hf, hf'⟩
    · cases hflags
    · have htable : Json.Tree.table? Json.Tree.toJson? f.2 = some flags := by
        rw [hflags] at hf'
        unfold Json.Tree.nullable? at hf'
        split at hf'
        · cases hf'
        · obtain ⟨table, htable, hsame⟩ := Option.map_eq_some_iff.mp hf'
          cases hsame
          exact htable
      obtain ⟨u, hu, hvalue⟩ := Json.Tree.exists_inside_of_table? htable he
      exact ((hfits.inside (.field hf)).inside hu).toJson? hvalue
  | null => cases hrecord
  | bool _ => cases hrecord
  | number _ => cases hrecord
  | string _ => cases hrecord
  | array _ => cases hrecord

end SaveRecord

/-- A player who can be saved still can after reading any bytes that hold a save. -/
theorem Player.Storable.restore? {p q : Player} {bytes : ByteArray} (h : p.Storable)
    (hq : p.restore? bytes = some q) : q.Storable := by
  obtain ⟨r, hr, rfl⟩ := Option.map_eq_some_iff.mp hq
  have hcoherent := h.coherent.apply r
  refine ⟨hcoherent.inventory, hcoherent.inCombat, ?_⟩
  show ∀ e ∈ (r.flags.getD p.flags).entries, e.2.Sorted ∧ e.2.Fits 125
  cases hflags : r.flags with
  | none => exact h.flags
  | some flags => exact SaveRecord.flags_of_ofBytes? hr hflags

/-- Play leaves a player who can be saved, over any content. -/
theorem Play.upkeep_storable :
    Upkeep (fun p => p.library.FromTexts ∧ p.player.Storable) Player.Storable Step.Storable :=
  Play.upkeep_fromTexts Player.upheld_storable (fun hp => hp) (fun _ hq _ => hq) fun _ _ hp => hp

namespace Session

/-- A world that was read comes with flags that can be saved. -/
theorem world_fromTexts {inv : Play → Prop} (hanswered : ∀ {α : Type} (answer : Library.Answer α)
    {p : Play}, inv p → inv (p.answered answer)) :
    Act.world.Yields (invariant fun p => p.library.FromTexts ∧ inv p) fun w : World =>
      ∀ e ∈ w.globalFlags.entries, e.2.Sorted ∧ e.2.Fits 125 :=
  Act.ask_fromTexts (fun _ hp => hanswered _ hp) fun _ _ hl =>
    ⟨fun w hw => let ⟨_, htext⟩ := hl.getWorld.1 w hw
      World.flags_of_ofText? htext, hl.getWorld.2⟩

/-- Every request leaves a player who can be saved, over any content and with any store, and whether
it succeeds or fails. -/
theorem Request.storable (r : Request) :
    r.act.Keeps (invariant fun p => p.library.FromTexts ∧ p.player.Storable) := by
  have hrestore : Act.restore.Keeps
      (invariant fun p => p.library.FromTexts ∧ p.player.Storable) := by
    intro p hp
    rw [Act.ends_restore]
    refine ⟨fun _ => hp, fun left _ => ?_⟩
    cases hread : (p.saves.entries.get? p.saveKey).bind p.player.restore? with
    | none => exact hp
    | some player =>
      obtain ⟨bytes, -, hbytes⟩ := Option.bind_eq_some_iff.mp hread
      exact ⟨hp.1, hp.2.restore? hbytes⟩
  have hforget : Act.forget.Keeps
      (invariant fun p => p.library.FromTexts ∧ p.player.Storable) := by
    intro p hp
    rw [Act.ends_forget]
    exact ⟨fun _ => hp, fun _ _ => hp⟩
  exact Play.upkeep_storable.request Player.storable_anywhere (world_fromTexts fun _ _ hp => hp)
    (fun _ stats hflags => Player.storable_fresh _ stats hflags) hrestore hforget r

/-- The player of every session can be saved, and its library has read nothing but texts, whatever
was asked of the session, whatever the content and the store held, and whether the requests
succeeded or failed. -/
theorem storable_of_possible {s : Session} (h : Possible s) :
    s.library.FromTexts ∧ s.player.Storable := by
  induction h with
  | new id title worldFile saveKey stats =>
    exact ⟨Library.fromTexts_empty worldFile, Player.storable_fresh _ _ fun e he => by cases he⟩
  | @request s _ source saves r ih =>
    exact handle_of_both_ends (J := fun t _ _ => t.library.FromTexts ∧ t.player.Storable)
      (r.storable (s.play source saves) ih)
  | clear _ ih => exact ⟨Library.fromTexts_empty _, ih.2⟩

end Session

end TextAdventure
