import TextAdventure.Proofs.Progress.Session
import TextAdventure.Proofs.Sound

/-!
# Runs

`Session.Reached` is every session that a player can be in over a source that does not change: it
began with a start, went on with requests that all succeeded, its library may have been cleared and
the session replaced by a new one on the way. Along a run the save under the session's key is that
of a player who can be read back. As long as the session takes input, its own player is this one, or
the one that the save is read as (`Session.Settled`). So whatever the acts of a player keep up
between the player and the journal (`Session.Invariant`) holds of both along every run.
-/

namespace TextAdventure

namespace Play

/-- The record under the session's key is that of a player who can be read back, and the player of
the session comes from this one. -/
def IsRecorded (p : Play) : Prop :=
  ∃ player : Player, player.Storable ∧ p.saves.entries.get? p.saveKey = some player.save ∧
    p.player.ComesFrom player

/-- A player that is saved and can be read back is recorded. -/
theorem IsSaved.isRecorded {p : Play} (h : p.IsSaved) (hplayer : p.player.Storable) :
    p.IsRecorded := ⟨p.player, hplayer, h, .inl rfl⟩

/-- An act that keeps progress keeps a player recorded: it leaves both alone, or it saves. -/
theorem IsRecorded.of_progress {p q : Play} (h : p.IsRecorded) (hprogress : Promise.progress.ok p q)
    (hq : q.player.Storable) : q.IsRecorded := by
  obtain ⟨player, hplayer, hsaved, hfrom⟩ := h
  obtain ⟨hkey, ⟨-, hsame, hentries⟩ | hsaved'⟩ := hprogress
  · refine ⟨player, hplayer, ?_, hsame ▸ hfrom⟩
    rw [hentries, hkey]
    exact hsaved
  · exact hsaved'.isRecorded hq

end Play

namespace Session

/-- A new session for the same player and adventure, in which nothing was read or played yet. -/
def reopened (s : Session) : Session := new s.id s.title s.library.worldFile s.saveKey s.stats

/-- Whether a request begins the adventure anew. -/
def Request.Begins : Request → Bool
  | .start => true
  | .reset => true
  | _ => false

/-- A request was carried out without failure. -/
def Reply.Succeeds (r : Reply) : Prop := ∃ lines, r.result = .ok lines

instance (r : Reply) : Decidable r.Succeeds :=
  match h : r.result with
  | .ok lines => isTrue ⟨lines, h⟩
  | .error e => isFalse fun ⟨lines, hlines⟩ => by
    rw [h] at hlines
    cases hlines

/-- A session that was reached over a source, with the store and with what happened since the
adventure was begun last, the newest first. -/
inductive Reached (source : Source) : Session → Saves → List Event → Prop where
  /-- A new session starts, whatever the store holds. -/
  | start {id title worldFile saveKey : String} {stats : Stats} {saves : Saves} {reply : Reply}
    (hreply : (new id title worldFile saveKey stats).handle source saves .start = reply)
    (hok : reply.Succeeds) : Reached source reply.session reply.saves reply.journal
  /-- A request is carried out. -/
  | request {s : Session} {saves : Saves} {journal : List Event} {reply : Reply}
    (h : Reached source s saves journal) (r : Request) (hreply : s.handle source saves r = reply)
    (hok : reply.Succeeds) : Reached source reply.session reply.saves
      (if r.Begins then reply.journal else reply.journal ++ journal)
  /-- The library is cleared. -/
  | clear {s : Session} {saves : Saves} {journal : List Event}
    (h : Reached source s saves journal) : Reached source s.clearLibrary saves journal
  /-- A new session is opened. -/
  | reopen {s : Session} {saves : Saves} {journal : List Event}
    (h : Reached source s saves journal) : Reached source s.reopened saves journal

variable {source : Source} {s : Session} {saves : Saves}

/-- The reply to a request that succeeds is what its act leaves. -/
theorem handle_of_ends {r : Request} {Q : Unit → Play → Prop} {E : Failure → Play → Prop}
    (hends : r.act.Ends (s.play source saves) Q E) (hok : (s.handle source saves r).Succeeds) :
    ∃ q : Play, Q () q ∧
      s.handle source saves r = ⟨.ok q.lines, q.toSession, q.saves, q.journal⟩ := by
  obtain ⟨lines, hlines⟩ := hok
  rw [handle_eq] at hlines ⊢
  unfold Act.Ends at hends
  cases hact : r.act (s.play source saves) with
  | ok a q =>
    rw [hact] at hends
    exact ⟨q, hends, rfl⟩
  | error e q =>
    rw [hact] at hlines
    cases hlines

/-- What the acts of a player keep up between the player and what happened since the adventure was
begun last. The journal of an act is that of the act alone, and comes in front of what happened
before. -/
structure Invariant (source : Source) (I : Player → List Event → Prop) : Prop where
  /-- It holds once the adventure was begun. -/
  start : ∀ p : Play, p.Sound source → p.journal = [] →
    start.Ends p (fun _ q => I q.player q.journal) fun _ _ => True
  /-- It is kept by showing the room of a player that was read from a save. -/
  proceed : ∀ (p : Play) (journal : List Event), p.Sound source →
    (∀ e ∈ p.journal, ∃ path, e = .fetched path) → I p.player journal →
    proceed.Ends p (fun _ q => I q.player (q.journal ++ journal)) fun _ _ => True
  /-- It is kept by a line of input. -/
  input : ∀ (line : String) (p : Play) (journal : List Event), p.Sound source → p.journal = [] →
    I p.player journal →
    (input line).Ends p (fun _ q => I q.player (q.journal ++ journal)) fun _ _ => True
  /-- It does not depend on what was said. -/
  said : ∀ (player : Player) (lines : List String) (journal : List Event), I player journal →
    I player ((lines.map Event.said).reverse ++ journal)
  /-- It does not depend on the numbers in flags, which may be others once a save is read. -/
  recalled : ∀ (player : Player) (journal : List Event),
    I player.recalled journal ↔ I player journal

/-- Nothing needs to be kept up. -/
theorem invariant_true (source : Source) : Invariant source fun _ _ => True where
  start _ _ _ := Act.ends_of_forall (fun _ _ => trivial) fun _ _ => trivial
  proceed _ _ _ _ _ := Act.ends_of_forall (fun _ _ => trivial) fun _ _ => trivial
  input _ _ _ _ _ _ := Act.ends_of_forall (fun _ _ => trivial) fun _ _ => trivial
  said _ _ _ _ := trivial
  recalled _ _ := Iff.rfl

/-- What holds of a session along a run. -/
structure Settled (source : Source) (I : Player → List Event → Prop) (s : Session) (saves : Saves)
    (journal : List Event) : Prop where
  /-- The library agrees with the source. -/
  agrees : Library.Agrees source s.library
  /-- The source has a world. -/
  world : ∃ w : World, Library.fetch source s.library.worldFile = .ok w
  /-- The player of the session can be saved. -/
  player : s.player.Storable
  /-- The save is that of a player who can be read back, and the player of the session comes from
  this one if the session takes input. -/
  saved : ∃ p : Player, p.Storable ∧ saves.entries.get? s.saveKey = some p.save ∧
    (s.active = true → s.player.ComesFrom p) ∧ I p journal

variable {I : Player → List Event → Prop} {journal : List Event}

/-- What holds of a player holds of whoever comes from this player, and the other way round. -/
theorem Invariant.comesFrom (hI : Invariant source I) {p q : Player} (h : q.ComesFrom p) :
    I q journal ↔ I p journal := by
  rcases h with rfl | rfl
  · exact Iff.rfl
  · exact hI.recalled p journal

/-- A session whose state is sound and recorded is settled. -/
theorem Settled.of_isRecorded {q : Play} (hI : Invariant source I) (hsound : q.Sound source)
    (hrecorded : q.IsRecorded)
    (hworld : ∃ w : World, Library.fetch source q.library.worldFile = .ok w)
    (hheld : I q.player journal) : Settled source I q.toSession q.saves journal := by
  obtain ⟨player, hplayer, hsaved, hfrom⟩ := hrecorded
  exact ⟨hsound.agrees, hworld, hsound.player, player, hplayer, hsaved, fun _ => hfrom,
    (hI.comesFrom hfrom).mp hheld⟩

/-- What is kept up along a run holds of the player of a session that takes input. -/
theorem Settled.holds (hI : Invariant source I) (h : Settled source I s saves journal)
    (hactive : s.active = true) : I s.player journal := by
  obtain ⟨player, -, -, hfrom, hheld⟩ := h.saved
  exact (hI.comesFrom (hfrom hactive)).mpr hheld

/-- A world comes with flags that can be saved. -/
theorem world_sound : Act.world.Yields (Promise.sound source) fun w : World =>
    ∀ e ∈ w.globalFlags.entries, e.2.Sorted ∧ e.2.Fits 125 :=
  Act.ask_sound Library.faithful_getWorld fun l w hl hw => by
    rw [hl.getWorld.1] at hw
    unfold Library.fetch at hw
    split at hw
    · split at hw
      · next hdoc =>
        cases hw
        exact World.flags_of_ofText? hdoc
      · cases hw
    · cases hw

/-- Beginning from the start room keeps a state sound. -/
theorem start_sound : start.Keeps (Promise.sound source) :=
  (Play.upkeep_sound source).start world_sound fun _ stats hflags =>
    Player.storable_fresh _ stats hflags

/-- The state in which a session that goes on reads its save: it takes input, and it has a player to
read the save into. -/
def ready (p : Play) (w : World) : Play :=
  { p.answered (Library.getWorld p.source p.library) with
    active := true
    player := if p.player.location.isEmpty then .fresh w.startRoom w.globalFlags p.stats
      else p.player }

/-- The state after a save was read. -/
def loaded (p : Play) (player : Player) (left : Option Nat) : Play :=
  { p with player := player, saves := { p.saves with gets := left } }

variable {p : Play} {player : Player} {w : World} {R : Unit → Play → Prop}
  {E : Failure → Play → Prop}

/-- A session that goes on reads its save once it has the world. -/
theorem ends_resume (hworld : (Library.getWorld p.source p.library).result = .ok w) :
    resume.Ends p R E ↔ goOn.Ends (ready p w) R E := by
  unfold resume Act.world
  rw [Act.ends_bind, Act.ends_ask, hworld]
  unfold activate beginning ready
  simp only [Act.ends_bind, Act.ends_modify, Act.ends_player, Except.ok.injEq, forall_eq',
    reduceCtorEq, false_implies, implies_true, and_true]
  -- A player who is nowhere yet begins in the start room; any other one is left as it is.
  have hsame : (p.answered (Library.getWorld p.source p.library)).player.location.isEmpty =
      p.player.location.isEmpty := rfl
  rw [hsame]
  split_ifs <;> rfl

/-- A session with a save that can be read goes on with the player that it is read as, whatever
player it had before. -/
theorem ends_goOn (hsaved : p.saves.entries.get? p.saveKey = some player.save)
    (hplayer : player.Storable) :
    goOn.Ends p R E ↔ (Saves.spend p.saves.gets = none → E Saves.refused p) ∧
      ∀ left, Saves.spend p.saves.gets = some left →
        proceed.Ends (loaded p player.recalled left) R E := by
  unfold goOn
  rw [Act.ends_bind, Act.ends_restore, hsaved, Option.bind_some, Player.restore?_save hplayer]
  exact Iff.rfl

/-- A session with a save that can be read ends as if it had had the player that the save is read
as. -/
theorem resume_eq {left : Option Nat}
    (hworld : (Library.getWorld p.source p.library).result = .ok w)
    (hsaved : p.saves.entries.get? p.saveKey = some player.save) (hplayer : player.Storable)
    (hleft : Saves.spend p.saves.gets = some left) :
    resume p = proceed (loaded (ready p w) player.recalled left) := by
  have hspend : Saves.spend (ready p w).saves.gets = some left := hleft
  have hfound : (ready p w).saves.entries.get? (ready p w).saveKey = some player.save := hsaved
  refine Act.eq_of_ends ?_
  rw [ends_resume hworld, ends_goOn hfound hplayer, hspend]
  refine ⟨fun h => absurd h (by simp), fun left' h => ?_⟩
  cases h
  exact Act.ends_self proceed _

/-- An act keeps a sound and recorded state settled if it keeps progress, soundness, the frame and
the invariant. -/
theorem Settled.of_keeps {act : Act Unit} {p : Play} (hI : Invariant source I)
    (hsound : p.Sound source) (hrecorded : p.IsRecorded)
    (hworld : ∃ w : World, Library.fetch source p.library.worldFile = .ok w)
    (hprogress : act.Keeps Promise.progress) (hkeeps : act.Keeps (Promise.sound source))
    (hframe : act.Keeps Promise.frame)
    (hheld : act.Ends p (fun _ q => I q.player (q.journal ++ journal)) fun _ _ => True) :
    act.Ends p (fun _ q => Settled source I q.toSession q.saves (q.journal ++ journal))
      fun _ _ => True := by
  have hagrees : Library.Agrees p.source p.library := hsound.reads.agreesHere
  -- The four promises are kept by one run of the act, so all hold of the state that it leaves.
  have hall := (hprogress p trivial).and ((hkeeps p hsound).and ((hframe p hagrees).and hheld))
  refine hall.imp ?_ fun _ _ _ => trivial
  intro _ q ⟨hprogress, hq, hframe, hheld⟩
  refine .of_isRecorded hI hq (hrecorded.of_progress hprogress hq.player) ?_ hheld
  rw [hframe.worldFile]
  exact hworld

/-- A session that begins from the start room is settled. -/
theorem start_settled (hI : Invariant source I) (hsound : p.Sound source) (hp : p.journal = []) :
    start.Ends p (fun _ q => Settled source I q.toSession q.saves q.journal) fun _ _ => True := by
  have hagrees : Library.Agrees p.source p.library := hsound.reads.agreesHere
  -- The start succeeds only if the source has a world.
  have hworld : start.Ends p
      (fun _ _ => ∃ w : World, Library.fetch source p.library.worldFile = .ok w)
      fun _ _ => True := by
    unfold start Act.world
    rw [Act.ends_bind, Act.ends_ask, hsound.fromSource, hsound.agrees.getWorld.1]
    exact ⟨fun w hw => Act.ends_of_forall (fun _ _ => ⟨w, hw⟩) fun _ _ => trivial,
      fun _ _ => trivial⟩
  have hframe := (Discipline.elementary_frame.start).keeps p hagrees
  have hall := (start_ends p).and
    ((start_sound p hsound).and (hworld.and (hframe.and (hI.start p hsound hp))))
  refine hall.imp ?_ fun _ _ _ => trivial
  intro _ q ⟨⟨_, hsaved⟩, hq, hworld, hframe, hheld⟩
  refine .of_isRecorded hI hq (hsaved.isRecorded hq.player) ?_ hheld
  rw [hframe.worldFile]
  exact hworld

namespace Settled

variable (hI : Invariant source I) (h : Settled source I s saves journal)

include hI h

/-- A settled session stays settled when it goes on from its save. -/
theorem resume : resume.Ends (s.play source saves)
    (fun _ q => Settled source I q.toSession q.saves (q.journal ++ journal)) fun _ _ => True := by
  obtain ⟨w, hw⟩ := h.world
  obtain ⟨player, hplayer, hsaved, -, hplayed⟩ := h.saved
  have hworld : (Library.getWorld (s.play source saves).source
      (s.play source saves).library).result = .ok w := h.agrees.getWorld.1.trans hw
  have hkey : (ready (s.play source saves) w).saves.entries.get?
    (ready (s.play source saves) w).saveKey = some player.save := hsaved
  rw [ends_resume hworld, ends_goOn hkey hplayer]
  refine ⟨fun _ => trivial, fun left _ => ?_⟩
  have hsound : (loaded (ready (s.play source saves) w) player.recalled left).Sound source :=
    ⟨rfl, h.agrees.getWorld.2, hplayer.recalled⟩
  -- Before the room is shown nothing happens but questions for the world.
  have hfetched : ∀ e ∈ (loaded (ready (s.play source saves) w) player.recalled left).journal,
      ∃ path, e = .fetched path := by
    intro e he
    have hmem : e ∈ ((Library.getWorld source s.library).fetched.map Event.fetched).reverse ++ [] :=
      he
    rw [List.append_nil] at hmem
    obtain ⟨path, -, rfl⟩ := List.mem_map.mp (List.mem_reverse.mp hmem)
    exact ⟨path, rfl⟩
  have hheld : I player.recalled journal := (hI.recalled player journal).mpr hplayed
  refine Settled.of_keeps hI hsound ⟨player, hplayer, hsaved, .inr rfl⟩ ⟨w, ?_⟩ proceed_progress
    (Play.upkeep_sound source).proceed
    Discipline.elementary_frame.proceed.keeps (hI.proceed _ journal hsound hfetched hheld)
  have hworldFile : (Library.getWorld source s.library).library.worldFile = s.library.worldFile :=
    Library.worldFile_getWorld
  exact hworldFile ▸ hw

/-- A settled session stays settled when it takes a line of input. -/
theorem input (line : String) : (input line).Ends (s.play source saves)
    (fun _ q => Settled source I q.toSession q.saves (q.journal ++ journal)) fun _ _ => True := by
  obtain ⟨player, hplayer, hsaved, hactive, -⟩ := h.saved
  -- A session that takes no input refuses the line; the player of one that does is recorded.
  cases hs : s.active with
  | false =>
    unfold Session.input
    rw [Act.ends_bind, ends_requireActive]
    refine ⟨fun hon => ?_, fun _ => trivial⟩
    have hoff : s.active = true := hon
    rw [hs] at hoff
    cases hoff
  | true =>
    have hsound : (s.play source saves).Sound source := ⟨rfl, h.agrees, h.player⟩
    exact Settled.of_keeps hI hsound ⟨player, hplayer, hsaved, hactive hs⟩ h.world
      (input_progress line) ((Play.upkeep_sound source).input Player.storable_anywhere line)
      (Discipline.elementary_frame.request (.input line)).keeps
      (hI.input line _ journal hsound rfl (h.holds hI hs))

/-- A settled session stays settled when it is left. -/
theorem leave : leave.Ends (s.play source saves)
    (fun _ q => Settled source I q.toSession q.saves (q.journal ++ journal)) fun _ _ => True := by
  obtain ⟨player, hplayer, hsaved, -, hplayed⟩ := h.saved
  have hsaid := hI.said player farewell journal hplayed
  unfold Session.leave deactivate
  rw [Act.ends_bind, Act.ends_modify, Act.ends_sayAll]
  refine ⟨h.agrees, h.world, h.player, player, hplayer, hsaved, (fun hoff => by cases hoff), ?_⟩
  show I player (((farewell.map Event.said).reverse ++ []) ++ journal)
  rw [List.append_nil]
  exact hsaid

/-- A settled session stays settled when it begins from the start room. -/
theorem start : start.Ends (s.play source saves)
    (fun _ q => Settled source I q.toSession q.saves q.journal) fun _ _ => True :=
  start_settled hI ⟨rfl, h.agrees, h.player⟩ rfl

/-- A settled session stays settled when it begins anew. -/
theorem reset : reset.Ends (s.play source saves)
    (fun _ q => Settled source I q.toSession q.saves q.journal) fun _ _ => True := by
  unfold Session.reset
  rw [Act.ends_bind, Act.ends_forget]
  exact ⟨fun _ => trivial, fun _ _ => start_settled hI ⟨rfl, h.agrees, h.player⟩ rfl⟩

/-- A settled session stays settled when a request succeeds. -/
theorem request (r : Request) : r.act.Ends (s.play source saves)
    (fun _ q => Settled source I q.toSession q.saves
      (if r.Begins then q.journal else q.journal ++ journal)) fun _ _ => True := by
  cases r with
  | start => exact h.start hI
  | resume => exact h.resume hI
  | reset => exact h.reset hI
  | input line => exact h.input hI line
  | leave => exact h.leave hI

end Settled

/-- A player who is nowhere can be saved. -/
theorem storable_nowhere : Player.nowhere.Storable :=
  Player.storable_fresh _ _ fun e he => by cases he

/-- A session that was reached is settled. -/
theorem Reached.settled (hI : Invariant source I) (h : Reached source s saves journal) :
    Settled source I s saves journal := by
  -- The induction is on the run; clearing and reopening change neither the store nor the save.
  induction h with
  | @start id title worldFile saveKey stats saves reply hreply hok =>
    subst hreply
    have hsound : ((new id title worldFile saveKey stats).play source saves).Sound source :=
      ⟨rfl, Library.agrees_empty source worldFile, storable_nowhere⟩
    obtain ⟨q, hq, heq⟩ := handle_of_ends (r := .start) (start_settled hI hsound rfl) hok
    rw [heq]
    exact hq
  | @request s saves journal reply _ r hreply hok ih =>
    subst hreply
    obtain ⟨q, hq, heq⟩ := handle_of_ends (ih.request hI r) hok
    rw [heq]
    exact hq
  | clear _ ih =>
    exact ⟨Library.agrees_empty source _, ih.world, ih.player, ih.saved⟩
  | @reopen s saves journal _ ih =>
    obtain ⟨player, hplayer, hsaved, -, hplayed⟩ := ih.saved
    exact ⟨Library.agrees_empty source _, ih.world, storable_nowhere, player, hplayer, hsaved,
      (fun hoff => by cases hoff), hplayed⟩

/-- A hall with a lever, and a tower. The way to the tower is closed when the hall is first entered,
and the lever opens it. Whoever comes to the hall later opens the way back from the tower. -/
def castle : Source
  | "world.json" => .ok (Json.object [("startRoom", .string "hall")]).compactText
  | "rooms/hall.json" => .ok (Json.object [
      ("id", .string "hall"),
      ("objects", .stringList ["lever"]),
      ("exits", .object [("nord", .string "tower")]),
      ("exitMeta", .object [("nord", .object [("flag", .string "lever")])]),
      ("on_first_enter", .array [.stringList ["lock_exit", "hall", "nord"]]),
      ("on_enter", .array [.stringList ["unlock_exit", "tower", "sued"]])]).compactText
  | "rooms/tower.json" => .ok (Json.object [("id", .string "tower")]).compactText
  | "objects/lever.json" => .ok (Json.object [
      ("id", .string "lever"),
      ("use", .array [.stringList ["unlock_exit", "hall", "nord"]])]).compactText
  | path => .error (.load path "missing")

/-- The reply to starting in the castle. -/
def castleBegun : Reply :=
  (new "castle" "Castle" Library.standardWorldFile "save" .starting).handle castle .empty .start

/-- The reply to using the lever then. -/
def leverUsed : Reply :=
  castleBegun.session.handle castle castleBegun.saves (.input "benutze lever")

/-- The castle can be played up to the use of the lever. -/
theorem reached_leverUsed : Reached castle leverUsed.session leverUsed.saves
    (leverUsed.journal ++ castleBegun.journal) := by
  have hok : castleBegun.Succeeds ∧ leverUsed.Succeeds := by decide +kernel
  exact (Reached.start rfl hok.1).request (.input "benutze lever") rfl hok.2

end Session

end TextAdventure
