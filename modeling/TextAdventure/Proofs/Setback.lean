import TextAdventure.Proofs.Run
import TextAdventure.Proofs.Upkeep

/-!
# What setbacks leave behind

A session that goes on or begins anew may fail before its player is where the save is. What then
becomes of the save is a matter of how far the request got.

Going on does nothing without the world, and a session that took no input before takes none
afterwards, so that the save stays as it is (`Session.Waits.refuses`). But the session takes input
as soon as the world is there, before the save is read (`Session.resume_before_read`).

Beginning anew deletes the save first. From the first write on the store has the record that the new
run wrote last, however the run fails (`Discipline.scenic_written`); until then there is none
(`Session.reset_record`).
-/

namespace TextAdventure

/-! ### The record that was written last -/

/-- The record that was written last, according to a journal. -/
def lastRecord (journal : List Event) : Option ByteArray :=
  journal.findSome? fun | .stored record => some record | _ => none

/-- What writes nothing leaves the record that was written last. -/
theorem lastRecord_append {new : List Event} (h : ∀ e ∈ new, ∀ record, e ≠ .stored record)
    (journal : List Event) : lastRecord (new ++ journal) = lastRecord journal := by
  have hnone : lastRecord new = none := by
    refine List.findSome?_eq_none_iff.mpr fun e he => ?_
    cases e with
    | stored record => exact absurd rfl (h _ he record)
    | _ => rfl
  unfold lastRecord at hnone ⊢
  rw [List.findSome?_append, hnone, Option.none_or]

/-- The store has the record that was written last under a key, and it is that of a player. -/
structure Play.Written (key : String) (p : Play) : Prop where
  /-- The key is that of the session. -/
  saveKey : p.saveKey = key
  /-- A player was written last and is in the store. -/
  record : ∃ player : Player, lastRecord p.journal = some player.save ∧
    p.saves.entries.get? key = some player.save

namespace Play.Written

variable {key : String} {p q : Play}

/-- It does not matter what happens as long as nothing is written. -/
theorem behind (h : p.Written key) {new : List Event} (hjournal : q.journal = new ++ p.journal)
    (hnew : ∀ e ∈ new, ∀ record, e ≠ .stored record) (hkey : q.saveKey = p.saveKey)
    (hentries : q.saves.entries = p.saves.entries) : q.Written key := by
  obtain ⟨player, hlast, hsaved⟩ := h.record
  refine ⟨hkey.trans h.saveKey, player, ?_, ?_⟩
  · rw [hjournal, lastRecord_append hnew, hlast]
  · rw [hentries, hsaved]

/-- It does not matter which event is entered into the journal, unless it is a write. -/
theorem noting (h : p.Written key) {e : Event} (he : ∀ record, e ≠ .stored record) :
    (p.noting e).Written key := by
  have hjournal : (p.noting e).journal = [e] ++ p.journal := rfl
  exact h.behind hjournal (fun _ hmem => List.mem_singleton.mp hmem ▸ he) rfl rfl

/-- Writing the player. -/
theorem persisted (hkey : p.saveKey = key) (left : Option Nat) : (p.persisted left).Written key :=
  ⟨hkey, p.player, rfl, hkey ▸ Table.get?_insert_self _ _ _⟩

end Play.Written

/-- In scenes the store keeps the record that was written last. -/
theorem Discipline.scenic_written (key : String) :
    (Promise.invariant (Play.Written key)).discipline.Scenic where
  note he _ hp := ⟨hp.noting he, trivial⟩
  player _ hp := ⟨hp, trivial⟩
  changePlayer _ _ hp := ⟨⟨hp.saveKey, hp.record⟩, trivial⟩
  persist p hp := by
    rw [Act.ends_persist]
    exact ⟨fun _ => hp, fun left _ => ⟨.persisted hp.saveKey left, trivial⟩⟩
  ask := by
    intro α request _ p hp
    have hanswered : (p.answered (request p.source p.library)).Written key := by
      refine hp.behind rfl ?_ rfl rfl
      intro e he record
      obtain ⟨path, -, rfl⟩ := List.mem_map.mp (List.mem_reverse.mp he)
      exact fun h => by cases h
    rw [Act.ends_ask]
    exact ⟨fun _ _ => ⟨hanswered, trivial⟩, fun _ _ => hanswered⟩
  level := by
    intro act h p hp
    rw [Act.ends_level]
    have hopened : (p.noting .opened).Written key := hp.noting (by simp)
    exact (h _ hopened).imp (fun _ q hq => ⟨hq.1.noting (by simp), trivial⟩)
      fun _ q hq => hq.noting (by simp)

namespace Session

variable {s t : Session} {source : Source} {saves saves' : Saves} {e : Failure}

/-! ### Going on -/

/-- Without the world a session neither begins nor goes on, and nothing changes. -/
theorem handle_of_worldless {r : Request} (hr : r = .start ∨ r = .resume)
    (h : (Library.getWorld source s.library).result = .error e) :
    s.handle source saves r = ⟨.error e, s, saves, [.fetched s.library.worldFile]⟩ := by
  have hworld : ∀ {rest : World → Act Unit}, (Act.world >>= rest).Ends (s.play source saves)
      (fun _ _ => False) fun e' q => (⟨.error e', q.toSession, q.saves, q.journal⟩ : Reply) =
        ⟨.error e, s, saves, [.fetched s.library.worldFile]⟩ := by
    intro rest
    have hanswer : Library.getWorld (s.play source saves).source (s.play source saves).library =
        ⟨.error e, s.library, [s.library.worldFile]⟩ := Library.getWorld_of_error h
    unfold Act.world
    rw [Act.ends_bind, Act.ends_ask_error (congrArg Library.Answer.result hanswer), hanswer]
    rfl
  rw [handle_iff_ends (J := (· = _))]
  rcases hr with rfl | rfl
  · exact hworld.imp_ok fun _ _ h => h.elim
  · exact hworld.imp_ok fun _ _ h => h.elim

/-- A session that takes no input refuses every line, and nothing changes. -/
theorem handle_input_of_inactive (h : s.active = false) (line : String) :
    s.handle source saves (.input line) = ⟨.error .noSession, s, saves, []⟩ := by
  rw [handle_iff_ends (J := (· = _))]
  show (input line).Ends _ _ _
  unfold input
  rw [Act.ends_bind, ends_requireActive]
  refine ⟨fun hon => ?_, fun _ => rfl⟩
  have hoff : s.active = true := hon
  rw [h] at hoff
  cases hoff

/-- Without a deletion a session does not begin anew, and nothing changes. -/
theorem handle_reset_of_refused (h : Saves.spend saves.removes = none) :
    s.handle source saves .reset = ⟨.error Saves.refused, s, saves, []⟩ := by
  have hspend : Saves.spend (s.play source saves).saves.removes = none := h
  rw [handle_iff_ends (J := (· = _))]
  show reset.Ends _ _ _
  unfold reset
  rw [Act.ends_bind, Act.ends_forget, hspend]
  exact ⟨fun _ => rfl, fun left hleft => by cases hleft⟩

/-- Without a read of the store a session does not go on, but from the world on it takes input. -/
theorem handle_resume_of_refused {w : World}
    (hworld : (Library.getWorld source s.library).result = .ok w)
    (hgets : Saves.spend saves.gets = none) :
    s.handle source saves .resume =
      ⟨.error Saves.refused, (ready (s.play source saves) w).toSession, saves,
        (ready (s.play source saves) w).journal⟩ := by
  have hspend : Saves.spend (ready (s.play source saves) w).saves.gets = none := hgets
  rw [handle_iff_ends (J := (· = _))]
  show resume.Ends _ _ _
  rw [ends_resume hworld]
  unfold goOn
  rw [Act.ends_bind, Act.ends_restore, hspend]
  exact ⟨fun _ => rfl, fun left hleft => by cases hleft⟩

/-- A request does not get as far as to begin the adventure or to go on. -/
def Request.FallsShort (source : Source) (s : Session) (saves : Saves) : Request → Prop
  | .start | .resume => ∃ e, (Library.getWorld source s.library).result = .error e
  | .reset => Saves.spend saves.removes = none
  | .input _ | .leave => True

/-- A session waits to begin or to go on: it gets requests that do not get as far, each with any
content, its library may be cleared, and the calls of the store may begin or cease to fail. -/
inductive Waits (s : Session) (saves : Saves) : Session → Saves → Prop where
  /-- Nothing has happened yet. -/
  | now : Waits s saves s saves
  /-- A request does not get as far as to begin or to go on. -/
  | request {t : Session} {saves' : Saves} (h : Waits s saves t saves') (source : Source)
    (r : Request) (hr : r.FallsShort source t saves') :
    Waits s saves (t.handle source saves' r).session (t.handle source saves' r).saves
  /-- The library is cleared. -/
  | clear {t : Session} {saves' : Saves} (h : Waits s saves t saves') :
    Waits s saves t.clearLibrary saves'
  /-- Other calls of the store fail. -/
  | store {t : Session} {saves' : Saves} (h : Waits s saves t saves')
    (gets puts removes : Option Nat) : Waits s saves t ⟨saves'.entries, gets, puts, removes⟩

/-- A request that does not get as far changes neither the store nor that the session takes no
input. -/
theorem idle_of_fallsShort (hs : s.active = false) {r : Request}
    (hr : r.FallsShort source s saves) :
    (s.handle source saves r).session.active = false ∧
      (s.handle source saves r).saves = saves := by
  -- Each kind of request has its own way not to get as far.
  cases r with
  | start =>
    obtain ⟨e, he⟩ := hr
    rw [handle_of_worldless (.inl rfl) he]
    exact ⟨hs, rfl⟩
  | resume =>
    obtain ⟨e, he⟩ := hr
    rw [handle_of_worldless (.inr rfl) he]
    exact ⟨hs, rfl⟩
  | reset =>
    rw [handle_reset_of_refused hr]
    exact ⟨hs, rfl⟩
  | input line =>
    rw [handle_input_of_inactive hs]
    exact ⟨hs, rfl⟩
  | leave =>
    refine handle_of_both_ends (J := fun t saves' _ => t.active = false ∧ saves' = saves) ?_
    show leave.Ends _ _ _
    unfold leave deactivate
    rw [Act.ends_bind, Act.ends_modify, Act.ends_sayAll]
    exact ⟨rfl, rfl⟩

/-- A session that took no input takes none while it waits, and the store keeps what it has. -/
theorem Waits.idle (h : Waits s saves t saves') (hs : s.active = false) :
    t.active = false ∧ saves'.entries = saves.entries := by
  induction h with
  | now => exact ⟨hs, rfl⟩
  | request _ source r hr ih =>
    obtain ⟨hactive, hsaves⟩ := idle_of_fallsShort ih.1 hr
    exact ⟨hactive, (congrArg Saves.entries hsaves).trans ih.2⟩
  | clear _ ih => exact ih
  | store _ _ _ _ ih => exact ih

/-- How going on fails before the save is read. Without the world nothing changes; if the session
took no input before, every line is refused and the store keeps what it has, until a request gets as
far as the world. If the store cannot be read, the save stays as it is, but the session takes input,
with a new player if it had none. -/
theorem resume_before_read (s : Session) (source : Source) (saves : Saves) :
    (∀ e, (Library.getWorld source s.library).result = .error e →
      s.handle source saves .resume = ⟨.error e, s, saves, [.fetched s.library.worldFile]⟩ ∧
      (s.active = false → ∀ t saves', Waits s saves t saves' →
        saves'.entries = saves.entries ∧ ∀ source' line,
          t.handle source' saves' (.input line) = ⟨.error .noSession, t, saves', []⟩)) ∧
    ∀ w, (Library.getWorld source s.library).result = .ok w → Saves.spend saves.gets = none →
      ∃ reply, s.handle source saves .resume = reply ∧ reply.result = .error Saves.refused ∧
        reply.saves = saves ∧ reply.session.active = true ∧
        reply.session.player = if s.player.location.isEmpty
          then .fresh w.startRoom w.globalFlags s.stats else s.player := by
  constructor
  · intro e he
    refine ⟨handle_of_worldless (.inr rfl) he, fun hs t saves' hwaits => ?_⟩
    obtain ⟨hactive, hentries⟩ := hwaits.idle hs
    exact ⟨hentries, fun _ line => handle_input_of_inactive hactive line⟩
  · intro w hworld hgets
    exact ⟨_, handle_resume_of_refused hworld hgets, rfl, rfl, rfl, rfl⟩

/-- A source without any documents. -/
def barren : Source := fun path => .error (.load path "missing")

/-- A session in the castle that was not begun. -/
def beforeCastle : Session := new "castle" "Castle" Library.standardWorldFile "save" .starting

/-- The store with the save of the one who used the lever, when it cannot be read. -/
def unreadable : Saves := { leverUsed.saves with gets := some 0 }

/-- The reply to going on then. -/
def unreadableResumed : Reply := beforeCastle.handle castle unreadable .resume

/-- The reply to walking on then, when the store can be read again. -/
def walkedOn : Reply := unreadableResumed.session.handle castle leverUsed.saves (.input "gehe nord")

/-- Without its world nobody goes on in the castle, and a line that is typed then is refused. -/
theorem resume_before_read_castle :
    beforeCastle.handle barren leverUsed.saves .resume =
        ⟨.error (.load "world.json" "missing"), beforeCastle, leverUsed.saves,
          [.fetched "world.json"]⟩ ∧
      beforeCastle.handle castle leverUsed.saves (.input "gehe nord") =
        ⟨.error .noSession, beforeCastle, leverUsed.saves, []⟩ ∧
      unreadableResumed.saves = unreadable := by
  have hbarren : (Library.getWorld barren beforeCastle.library).result =
      .error (.load "world.json" "missing") := rfl
  have hworldless := (resume_before_read beforeCastle barren leverUsed.saves).1 _ hbarren
  have hwaits := hworldless.2 rfl beforeCastle leverUsed.saves .now
  have hcastle : (Library.getWorld castle beforeCastle.library).result.toOption.any
      (fun _ => true) = true := by decide +kernel
  obtain ⟨w, hw, -⟩ := Library.exists_of_any hcastle
  obtain ⟨reply, hreply, -, hsaves, -⟩ :=
    (resume_before_read beforeCastle castle unreadable).2 w hw rfl
  refine ⟨hworldless.1, hwaits.2 castle "gehe nord", ?_⟩
  rw [← hsaves, ← hreply]
  rfl

/-- The session that could not read its save takes input, and so the save is lost. -/
theorem save_lost_after_resume :
    beforeCastle.active = false ∧ ¬unreadableResumed.Succeeds ∧
    unreadableResumed.session.active = true ∧ walkedOn.Succeeds ∧
    walkedOn.saves.entries.get? "save" ≠ leverUsed.saves.entries.get? "save" := by
  decide +kernel

/-! ### Beginning anew -/

/-- The state in which a session that begins writes its player. -/
def begun (p : Play) (w : World) : Play :=
  { p.answered (Library.getWorld p.source p.library) with
    active := true
    player := .fresh w.startRoom w.globalFlags p.stats }

/-- A session begins by writing its new player once it has the world. -/
theorem ends_start {p : Play} {w : World} {R : Unit → Play → Prop} {E : Failure → Play → Prop}
    (hworld : (Library.getWorld p.source p.library).result = .ok w) :
    start.Ends p R E ↔
      (Saves.spend p.saves.puts = none → E Saves.refused (begun p w)) ∧
      ∀ left, Saves.spend p.saves.puts = some left →
        Act.Ends (do
          Act.say "Starte Adventure..."
          Scene.enter true) ((begun p w).persisted left) R E := by
  unfold start Act.world activate beginning
  rw [Act.ends_bind, Act.ends_ask_ok hworld]
  simp only [Act.ends_bind, Act.ends_modify, Act.ends_get, Act.ends_pure, Act.ends_changePlayer,
    Act.ends_persist]
  rfl

/-- The store after a deletion under a key, with so many deletions left. -/
def deleted (saves : Saves) (key : String) (left : Option Nat) : Saves :=
  { saves with removes := left, entries := saves.entries.erase key }

variable {left : Option Nat}

/-- A session begins anew as it begins, once its save is deleted. -/
theorem ends_reset (h : Saves.spend saves.removes = some left) {R : Unit → Play → Prop}
    {E : Failure → Play → Prop} : reset.Ends (s.play source saves) R E ↔
      start.Ends (s.play source (deleted saves s.saveKey left)) R E := by
  have hspend : Saves.spend (s.play source saves).saves.removes = some left := h
  unfold reset
  rw [Act.ends_bind, Act.ends_forget, hspend]
  constructor
  · intro hends
    exact hends.2 left rfl
  · intro hstart
    refine ⟨fun hnone => (by cases hnone), fun left' hleft' => ?_⟩
    cases hleft'
    exact hstart

/-- Without the world nothing begins after the deletion. -/
theorem handle_reset_of_worldless (h : Saves.spend saves.removes = some left)
    (hworld : (Library.getWorld source s.library).result = .error e) :
    s.handle source saves .reset =
      ⟨.error e, s, deleted saves s.saveKey left, [.fetched s.library.worldFile]⟩ := by
  have hstart : s.handle source (deleted saves s.saveKey left) .start =
      ⟨.error e, s, deleted saves s.saveKey left, [.fetched s.library.worldFile]⟩ :=
    handle_of_worldless (.inl rfl) hworld
  rw [handle_iff_ends (J := (· = _))] at hstart ⊢
  exact (ends_reset h).mpr hstart

/-- Without the first write the new run has no record. -/
theorem handle_reset_of_unwritten {w : World} (h : Saves.spend saves.removes = some left)
    (hworld : (Library.getWorld source s.library).result = .ok w)
    (hputs : Saves.spend saves.puts = none) :
    ∃ reply, s.handle source saves .reset = reply ∧ reply.result = .error Saves.refused ∧
      reply.saves = deleted saves s.saveKey left := by
  have hspend : Saves.spend (s.play source (deleted saves s.saveKey left)).saves.puts = none :=
    hputs
  refine ⟨_, rfl, ?_⟩
  rw [handle_iff_ends (J := fun reply => reply.result = _ ∧ reply.saves = _)]
  refine (ends_reset h).mpr ((ends_start hworld).mpr ?_)
  rw [hspend]
  exact ⟨fun _ => ⟨rfl, rfl⟩, fun left' hleft' => by cases hleft'⟩

/-- From the first write on the record is that of the player whom the new run wrote last. -/
theorem handle_reset_of_written {w : World} (h : Saves.spend saves.removes = some left)
    (hworld : (Library.getWorld source s.library).result = .ok w)
    (hputs : Saves.spend saves.puts ≠ none) :
    ∃ player : Player,
      lastRecord (s.handle source saves .reset).journal = some player.save ∧
      (s.handle source saves .reset).saves.entries.get? s.saveKey = some player.save := by
  have hkeeps : Act.Keeps (Promise.invariant (Play.Written s.saveKey)) (do
      Act.say "Starte Adventure..."
      Scene.enter true) := by
    have hscenic := Discipline.scenic_written s.saveKey
    exact ((hscenic.say _).bind fun _ => hscenic.enter true).keeps
  refine handle_of_both_ends (J := fun _ saves' journal => ∃ player : Player,
    lastRecord journal = some player.save ∧ saves'.entries.get? s.saveKey = some player.save) ?_
  refine (ends_reset h).mpr ((ends_start hworld).mpr ⟨fun hnone => absurd hnone hputs, ?_⟩)
  intro left' _
  have hkey : (begun (s.play source (deleted saves s.saveKey left)) w).saveKey = s.saveKey := rfl
  exact (hkeeps _ (.persisted hkey left')).imp (fun _ _ hq => hq.record) fun _ _ hq => hq.record

/-- What becomes of the save when a session begins anew. If the deletion fails, everything stays as
it is. If it succeeds, and then the world is missing or the new player cannot be written, there is
no record. Otherwise the record is that of a player, the one whom the new run wrote last, whether
the run succeeds or fails. -/
theorem reset_record (s : Session) (source : Source) (saves : Saves) :
    ∃ reply, s.handle source saves .reset = reply ∧
      (Saves.spend saves.removes = none ∧ reply = ⟨.error Saves.refused, s, saves, []⟩ ∨
      Saves.spend saves.removes ≠ none ∧ reply.saves.entries.get? s.saveKey = none ∧
        ((∃ e, (Library.getWorld source s.library).result = .error e ∧
            reply.result = .error e ∧ reply.session = s) ∨
          (∃ w, (Library.getWorld source s.library).result = .ok w) ∧
            Saves.spend saves.puts = none ∧ reply.result = .error Saves.refused) ∨
      Saves.spend saves.removes ≠ none ∧ Saves.spend saves.puts ≠ none ∧
        (∃ w, (Library.getWorld source s.library).result = .ok w) ∧
        ∃ player : Player, lastRecord reply.journal = some player.save ∧
          reply.saves.entries.get? s.saveKey = some player.save) := by
  refine ⟨_, rfl, ?_⟩
  have hnone : ∀ left, (deleted saves s.saveKey left).entries.get? s.saveKey = none := fun _ =>
    (Table.get?_erase saves.entries s.saveKey s.saveKey).trans (if_pos rfl)
  -- The calls of the request in their order: the deletion, the world, and the first save.
  cases hremoves : Saves.spend saves.removes with
  | none => exact .inl ⟨rfl, handle_reset_of_refused hremoves⟩
  | some left =>
    right
    cases hworld : (Library.getWorld source s.library).result with
    | error e =>
      rw [handle_reset_of_worldless hremoves hworld]
      exact .inl ⟨Option.some_ne_none left, hnone left, .inl ⟨e, rfl, rfl, rfl⟩⟩
    | ok w =>
      cases hputs : Saves.spend saves.puts with
      | none =>
        obtain ⟨reply, hreply, hresult, hsaves⟩ := handle_reset_of_unwritten hremoves hworld hputs
        rw [hreply, hsaves]
        exact .inl ⟨Option.some_ne_none left, hnone left, .inr ⟨⟨w, rfl⟩, rfl, hresult⟩⟩
      | some left' =>
        have hputs' : Saves.spend saves.puts ≠ none := hputs ▸ Option.some_ne_none left'
        have hrecord := handle_reset_of_written hremoves hworld hputs'
        exact .inr ⟨Option.some_ne_none left, Option.some_ne_none left', ⟨w, rfl⟩, hrecord⟩

/-- The reply to beginning anew in the castle when its world is missing. -/
def worldlessReset : Reply := beforeCastle.handle barren leverUsed.saves .reset

/-- The reply to beginning anew in the castle when nothing can be written. -/
def unwrittenReset : Reply :=
  beforeCastle.handle castle { leverUsed.saves with puts := some 0 } .reset

/-- A reset that fails for want of the world or of the first write leaves no record where there was
one. -/
theorem record_lost_after_reset :
    leverUsed.saves.entries.get? "save" ≠ none ∧
    (¬worldlessReset.Succeeds ∧ worldlessReset.saves.entries.get? "save" = none) ∧
    ¬unwrittenReset.Succeeds ∧ unwrittenReset.saves.entries.get? "save" = none := by
  decide +kernel

end Session

end TextAdventure
