import TextAdventure.Proofs.Elementary
import TextAdventure.Proofs.Run
import TextAdventure.Proofs.Saves
import Mathlib.Logic.Function.Basic

/-!
# Sessions that share a store

Several sessions take turns over one store (`Shared.run`), each with its own player and adventure.
To take no notice of what is under the keys of others is a discipline that the smallest acts obey
(`Discipline.discreet`); so what a request answers and what it leaves under the session's own key
stay the same when the rest of the store is another one, and the rest of the store stays as it was
(`Session.handle_laidOver`). Hence a session cannot tell whether others took their turns in between
(`Shared.undisturbed`), as long as no two of them belong to the same player and adventure.
-/

namespace TextAdventure

namespace Play

/-- The state with other entries in the store, apart from that of the session. -/
def laidOver (p : Play) (others : Table ByteArray) : Play :=
  { p with saves := p.saves.laidOver p.saveKey others }

/-- A later state has the same key, and a reliable store if the earlier one had. -/
structure Keyed (p q : Play) : Prop where
  /-- The key of the save stays. -/
  saveKey : q.saveKey = p.saveKey
  /-- The store stays reliable. -/
  reliable : p.saves.Reliable → q.saves.Reliable

theorem Keyed.trans {p q r : Play} (h : p.Keyed q) (h' : q.Keyed r) : p.Keyed r :=
  ⟨h'.saveKey.trans h.saveKey, fun hp => h'.reliable (h.reliable hp)⟩

end Play

namespace Act

variable {α β : Type}

/-- An act ends alike whatever the store has under the keys of others, and leaves it there. -/
def Discreet (post : α → Prop) (act : Act α) : Prop :=
  ∀ (p : Play) (others : Table ByteArray), act.Ends p
    (fun a q => post a ∧ p.Keyed q ∧ act (p.laidOver others) = .ok a (q.laidOver others))
    fun e q => p.Keyed q ∧ act (p.laidOver others) = .error e (q.laidOver others)

/-- Doing nothing takes no notice of others. -/
theorem discreet_pure {post : α → Prop} {a : α} (h : post a) : Discreet post (pure a) :=
  fun _ _ => ⟨h, ⟨rfl, id⟩, rfl⟩

/-- Acts that take no notice of others take none one after the other. -/
theorem Discreet.bind {post : α → Prop} {post' : β → Prop} {act : Act α} {next : α → Act β}
    (h : act.Discreet post) (hnext : ∀ a, post a → (next a).Discreet post') :
    (act >>= next).Discreet post' := by
  intro p others
  rw [ends_bind]
  refine (h p others).imp ?_ ?_
  · rintro a q ⟨ha, hpq, hact⟩
    refine (hnext a ha q others).imp ?_ ?_
    · rintro b r ⟨hb, hqr, hrest⟩
      exact ⟨hb, hpq.trans hqr, (Act.bind_of_ok hact).trans hrest⟩
    · rintro e r ⟨hqr, hrest⟩
      exact ⟨hpq.trans hqr, (Act.bind_of_ok hact).trans hrest⟩
  · rintro e q ⟨hpq, hact⟩
    exact ⟨hpq, Act.bind_of_error hact⟩

end Act

namespace Discipline

/-- To take no notice of what the store has under the keys of others. -/
def discreet : Discipline where
  Obeys := Act.Discreet
  pure := Act.discreet_pure
  bind := Act.Discreet.bind

/-- A change that concerns neither the key nor the store takes no notice of others. -/
theorem discreet_modify {f : Play → Play} (hkeyed : ∀ p : Play, p.Keyed (f p))
    (hover : ∀ (p : Play) (others : Table ByteArray),
      f (p.laidOver others) = (f p).laidOver others) :
    discreet.Allows (modify f) := fun p others =>
  ⟨trivial, hkeyed p, congrArg (EStateM.Result.ok ()) (hover p others)⟩

/-- Saving the player takes no notice of others. -/
theorem discreet_persist : discreet.Allows Act.persist := by
  intro p others
  have hput := p.saves.put_laidOver p.saveKey p.player.save others
  have hreliable := fun h : p.saves.Reliable => h.put p.saveKey p.player.save
  unfold Act.Ends Act.persist
  simp only [Play.laidOver, hput]
  cases hsaves : p.saves.put p.saveKey p.player.save with
  | mk result saves =>
    rw [hsaves] at hreliable
    cases result with
    | ok _ => exact ⟨trivial, ⟨rfl, hreliable⟩, rfl⟩
    | error e => exact ⟨⟨rfl, hreliable⟩, rfl⟩

/-- Reading the save of the player takes no notice of others. -/
theorem discreet_restore : discreet.Allows Act.restore := by
  intro p others
  have hget := p.saves.get_laidOver p.saveKey others
  have hreliable := fun h : p.saves.Reliable => h.get p.saveKey
  unfold Act.Ends Act.restore
  simp only [Play.laidOver, hget]
  cases hsaves : p.saves.get p.saveKey with
  | mk result saves =>
    rw [hsaves] at hreliable
    cases result with
    | ok bytes =>
      simp only
      cases bytes.bind p.player.restore? with
      | some player => exact ⟨trivial, ⟨rfl, hreliable⟩, rfl⟩
      | none => exact ⟨trivial, ⟨rfl, hreliable⟩, rfl⟩
    | error e => exact ⟨⟨rfl, hreliable⟩, rfl⟩

/-- Removing the save of the player takes no notice of others. -/
theorem discreet_forget : discreet.Allows Act.forget := by
  intro p others
  have hremove := p.saves.remove_laidOver p.saveKey others
  have hreliable := fun h : p.saves.Reliable => h.remove p.saveKey
  unfold Act.Ends Act.forget
  simp only [Play.laidOver, hremove]
  cases hsaves : p.saves.remove p.saveKey with
  | mk result saves =>
    rw [hsaves] at hreliable
    cases result with
    | ok _ => exact ⟨trivial, ⟨rfl, hreliable⟩, rfl⟩
    | error e => exact ⟨⟨rfl, hreliable⟩, rfl⟩

/-- A level takes no notice of others if the act in it takes none. -/
theorem discreet_level {act : Act Unit} (h : discreet.Allows act) :
    discreet.Allows (Act.level act) := by
  intro p others
  rw [Act.ends_level]
  refine (h (p.noting .opened) others).imp ?_ ?_
  · rintro _ q ⟨_, hq, hact⟩
    exact ⟨trivial, ⟨hq.saveKey, hq.reliable⟩, Act.level_of_ok (p := p.laidOver others) hact⟩
  · rintro e q ⟨hq, hact⟩
    exact ⟨⟨hq.saveKey, hq.reliable⟩, Act.level_of_error (p := p.laidOver others) hact⟩

/-- The smallest acts take no notice of others. -/
theorem elementary_discreet : discreet.Elementary where
  note e := discreet_modify (fun _ => ⟨rfl, id⟩) fun _ _ => rfl
  player _ _ := ⟨trivial, ⟨rfl, id⟩, rfl⟩
  changePlayer change := discreet_modify (fun _ => ⟨rfl, id⟩) fun _ _ => rfl
  persist := discreet_persist
  restore := discreet_restore
  forget := discreet_forget
  ask {_ request} _ p others := by
    unfold Act.Ends Act.ask
    simp only [Play.laidOver]
    cases (request p.source p.library).result with
    | ok a => exact ⟨trivial, ⟨rfl, id⟩, rfl⟩
    | error e => exact ⟨⟨rfl, id⟩, rfl⟩
  level h := discreet_level h
  activate := discreet_modify (fun _ => ⟨rfl, id⟩) fun _ _ => rfl
  deactivate := discreet_modify (fun _ => ⟨rfl, id⟩) fun _ _ => rfl
  requireActive p others := by
    have hover := Session.ends_requireActive.mp
      (Act.ends_self Session.requireActive (p.laidOver others))
    rw [Session.ends_requireActive]
    exact ⟨fun hon => ⟨trivial, ⟨rfl, id⟩, hover.1 hon⟩, fun hoff => ⟨⟨rfl, id⟩, hover.2 hoff⟩⟩
  beginning world _ _ := ⟨trivial, ⟨rfl, id⟩, rfl⟩

end Discipline

namespace Session

variable {s : Session} {saves : Saves}

/-- A request is answered alike whatever the store has under the keys of others, and leaves it
there. -/
theorem handle_laidOver (s : Session) (source : Source) (saves : Saves) (r : Request)
    (others : Table ByteArray) :
    s.handle source (saves.laidOver s.saveKey others) r =
        { s.handle source saves r with
          saves := (s.handle source saves r).saves.laidOver s.saveKey others } ∧
      (s.handle source saves r).session.saveKey = s.saveKey ∧
      (saves.Reliable → (s.handle source saves r).saves.Reliable) := by
  -- The request acts in the same way on the store that holds the records of others as well.
  have hends := Discipline.elementary_discreet.request r (s.play source saves) others
  have hplay : (s.play source saves).laidOver others =
    s.play source (saves.laidOver s.saveKey others) := rfl
  rw [hplay] at hends
  rw [handle_eq, handle_eq]
  unfold Act.Ends at hends
  cases hact : r.act (s.play source saves) with
  | ok a q =>
    rw [hact] at hends
    obtain ⟨-, hkeyed, hover⟩ := hends
    rw [hover]
    have hkey : q.saveKey = s.saveKey := hkeyed.saveKey
    refine ⟨?_, hkey, hkeyed.reliable⟩
    rw [← hkey]
    rfl
  | error e q =>
    rw [hact] at hends
    obtain ⟨hkeyed, hover⟩ := hends
    rw [hover]
    have hkey : q.saveKey = s.saveKey := hkeyed.saveKey
    refine ⟨?_, hkey, hkeyed.reliable⟩
    rw [← hkey]
    rfl

/-- What a session sees of the reply to one of its requests. -/
structure Sight where
  /-- The lines or the failure. -/
  result : Except Failure (List String)
  /-- The state of the session afterwards. -/
  session : Session
  /-- What happened, the newest first. -/
  journal : List Event
  /-- What is in the store under the key of the session afterwards. -/
  record : Option ByteArray

/-- What a session sees of a reply. -/
def Reply.sight (r : Reply) : Sight :=
  ⟨r.result, r.session, r.journal, r.saves.entries.get? r.session.saveKey⟩

/-- A session sees the same whatever reliable store it works with, as long as its own record is the
same. -/
theorem sight_handle {saves' : Saves} (h : saves.Reliable) (h' : saves'.Reliable)
    (hrecord : saves'.entries.get? s.saveKey = saves.entries.get? s.saveKey) (source : Source)
    (r : Request) : (s.handle source saves' r).sight = (s.handle source saves r).sight := by
  obtain ⟨hover, hkey, -⟩ := s.handle_laidOver source saves r saves'.entries
  rw [h.eq_laidOver h' hrecord, hover]
  unfold Reply.sight Saves.laidOver
  simp only [hkey, Table.get?_laidOver, if_true]

/-- A request leaves what the store has under other keys. -/
theorem get?_handle {key : String} (hkey : key ≠ s.saveKey) (source : Source) (r : Request) :
    (s.handle source saves r).saves.entries.get? key = saves.entries.get? key := by
  -- A store over its own entries is itself, and there the other keys are those that it had.
  have hover := (s.handle_laidOver source saves r saves.entries).1
  rw [Saves.laidOver_self] at hover
  rw [hover]
  unfold Saves.laidOver
  rw [Table.get?_laidOver, if_neg hkey]

end Session

/-- Sessions that share a store. -/
structure Shared (ι : Type) where
  session : ι → Session
  saves : Saves

/-- A turn of one of several sessions: a request, and the content with which it is answered. -/
structure Turn (ι : Type) where
  who : ι
  source : Source
  request : Session.Request

namespace Shared

variable {ι : Type} [DecidableEq ι] {x y : Shared ι} {i : ι} {t : Turn ι}

/-- The reply to the session whose turn it is. -/
def reply (x : Shared ι) (t : Turn ι) : Session.Reply :=
  (x.session t.who).handle t.source x.saves t.request

/-- The sessions and the store after a turn. -/
def after (x : Shared ι) (t : Turn ι) : Shared ι where
  session := Function.update x.session t.who (x.reply t).session
  saves := (x.reply t).saves

/-- The sessions and the store after several turns. -/
def run (x : Shared ι) (turns : List (Turn ι)) : Shared ι := turns.foldl after x

/-- What one of the sessions sees in the course of several turns. -/
def seen (i : ι) (x : Shared ι) : List (Turn ι) → List Session.Sight
  | [] => []
  | t :: ts =>
    if t.who = i then (x.reply t).sight :: seen i (x.after t) ts else seen i (x.after t) ts

/-- The turns of one of the sessions. -/
def own (i : ι) (turns : List (Turn ι)) : List (Turn ι) := turns.filter fun t => t.who = i

/-- The record of one of the sessions. -/
def record (x : Shared ι) (i : ι) : Option ByteArray :=
  x.saves.entries.get? (x.session i).saveKey

/-- No two sessions have the same key. -/
def KeysDiffer (x : Shared ι) : Prop := Function.Injective fun i => (x.session i).saveKey

/-- One of the sessions is in the same state in both, with the same record in a reliable store. -/
structure AlikeFor (i : ι) (x y : Shared ι) : Prop where
  /-- The session is in the same state. -/
  session : y.session i = x.session i
  /-- It has the same record. -/
  record : y.record i = x.record i
  /-- The first store is reliable. -/
  reliable : x.saves.Reliable
  /-- The second store is reliable. -/
  reliable' : y.saves.Reliable

/-- A turn changes no key. -/
theorem saveKey_after (x : Shared ι) (t : Turn ι) (i : ι) :
    ((x.after t).session i).saveKey = (x.session i).saveKey := by
  unfold after
  by_cases hi : i = t.who
  · subst hi
    simp only [Function.update_self]
    exact ((x.session t.who).handle_laidOver t.source x.saves t.request .empty).2.1
  · simp only [Function.update_of_ne hi]

/-- The keys still differ after a turn. -/
theorem KeysDiffer.after (h : x.KeysDiffer) (t : Turn ι) : (x.after t).KeysDiffer := by
  unfold KeysDiffer
  simp only [saveKey_after]
  exact h

/-- A reliable store is reliable after a turn. -/
theorem reliable_after (h : x.saves.Reliable) (t : Turn ι) : (x.after t).saves.Reliable :=
  ((x.session t.who).handle_laidOver t.source x.saves t.request .empty).2.2 h

/-- The record of the session whose turn it was is the one that it saw last. -/
theorem record_after_who (x : Shared ι) (t : Turn ι) :
    (x.after t).record t.who = (x.reply t).sight.record := by
  unfold record after Session.Reply.sight
  simp only [Function.update_self]

/-- After its own turn a session is again in the same state, and it has seen the same. -/
theorem AlikeFor.after_own (h : AlikeFor i x y) (ht : t.who = i) :
    AlikeFor i (x.after t) (y.after t) ∧ (y.reply t).sight = (x.reply t).sight := by
  subst ht
  have hrecord : y.saves.entries.get? (x.session t.who).saveKey =
      x.saves.entries.get? (x.session t.who).saveKey := by
    have hrecord := h.record
    unfold Shared.record at hrecord
    rwa [h.session] at hrecord
  have hsight : (y.reply t).sight = (x.reply t).sight := by
    unfold reply
    rw [h.session]
    exact Session.sight_handle h.reliable h.reliable' hrecord t.source t.request
  refine ⟨⟨?_, ?_, reliable_after h.reliable t, reliable_after h.reliable' t⟩, hsight⟩
  · have hsession : (y.reply t).session = (x.reply t).session :=
      congrArg Session.Sight.session hsight
    unfold after
    simp only [Function.update_self, hsession]
  · rw [record_after_who, record_after_who, hsight]

/-- After the turn of another session a session is in the state in which it was. -/
theorem AlikeFor.after_other (h : AlikeFor i x y) (hkeys : x.KeysDiffer) (ht : t.who ≠ i) :
    AlikeFor i (x.after t) y := by
  have hsession : (x.after t).session i = x.session i := by
    unfold after
    simp only [Function.update_of_ne (Ne.symm ht)]
  have hkey : (x.session i).saveKey ≠ (x.session t.who).saveKey := fun heq => ht (hkeys heq).symm
  refine ⟨h.session.trans hsession.symm, ?_, reliable_after h.reliable t, h.reliable'⟩
  rw [h.record, Shared.record, Shared.record, hsession]
  exact (Session.get?_handle hkey t.source t.request).symm

/-- A session sees the same, and comes to the same end, if others do not take their turns. -/
theorem AlikeFor.run (h : AlikeFor i x y) (hkeys : x.KeysDiffer) (turns : List (Turn ι)) :
    seen i y (own i turns) = seen i x turns ∧ AlikeFor i (x.run turns) (y.run (own i turns)) := by
  induction turns generalizing x y with
  | nil => exact ⟨rfl, h⟩
  | cons t ts ih =>
    by_cases ht : t.who = i
    · obtain ⟨hafter, hsight⟩ := h.after_own ht
      obtain ⟨hseen, hrun⟩ := ih hafter (hkeys.after t)
      have hown : own i (t :: ts) = t :: own i ts := List.filter_cons_of_pos (decide_eq_true ht)
      rw [hown]
      refine ⟨?_, hrun⟩
      rw [seen, seen, if_pos ht, if_pos ht, hsight, hseen]
    · obtain ⟨hseen, hrun⟩ := ih (h.after_other hkeys ht) (hkeys.after t)
      have hown : own i (t :: ts) = own i ts :=
        List.filter_cons_of_neg (decide_eq_true_iff.not.mpr ht)
      rw [hown]
      refine ⟨?_, hrun⟩
      rw [seen, if_neg ht, hseen]

/-- Turns leave what the store has under keys that are those of no session. -/
theorem get?_run {key : String} (hkey : ∀ i, key ≠ (x.session i).saveKey)
    (turns : List (Turn ι)) :
    (x.run turns).saves.entries.get? key = x.saves.entries.get? key := by
  induction turns generalizing x with
  | nil => rfl
  | cons t ts ih =>
    have hafter : ∀ i, key ≠ ((x.after t).session i).saveKey := fun i => by
      rw [saveKey_after]
      exact hkey i
    calc ((x.after t).run ts).saves.entries.get? key
        = (x.after t).saves.entries.get? key := ih hafter
      _ = x.saves.entries.get? key := Session.get?_handle (hkey t.who) t.source t.request

omit [DecidableEq ι] in
/-- Sessions whose keys are made from different adventures or players have different keys. -/
theorem keysDiffer_of_key {mark : String} {identity : ι → Option String}
    (hkey : ∀ i, (x.session i).saveKey = Saves.key mark (x.session i).id (identity i))
    (hid : ∀ i, ':' ∉ (x.session i).id.toList)
    (hdiffer : Function.Injective fun i =>
      ((x.session i).id, Saves.identityName (identity i))) : x.KeysDiffer := by
  intro i j hij
  have hij' : Saves.key mark (x.session i).id (identity i) =
      Saves.key mark (x.session j).id (identity j) := by
    rw [← hkey, ← hkey]
    exact hij
  obtain ⟨hadventure, hname⟩ := Saves.key_inj (hid i) (hid j) hij'
  exact hdiffer (Prod.ext hadventure hname)

/-- Sessions over one reliable store do not disturb each other, as long as no two of them belong to
the same player and adventure. Whatever turns they take, each of them sees what it would have seen
if the others had taken none, and comes to the same state and the same record; and what the store
has under other keys stays. -/
theorem undisturbed {mark : String} {identity : ι → Option String} (x : Shared ι)
    (hkey : ∀ i, (x.session i).saveKey = Saves.key mark (x.session i).id (identity i))
    (hid : ∀ i, ':' ∉ (x.session i).id.toList)
    (hdiffer : Function.Injective fun i =>
      ((x.session i).id, Saves.identityName (identity i)))
    (hsaves : x.saves.Reliable) (turns : List (Turn ι)) :
    (∀ i, seen i x turns = seen i x (own i turns) ∧
        (x.run turns).session i = (x.run (own i turns)).session i ∧
        (x.run turns).record i = (x.run (own i turns)).record i) ∧
      ∀ key, (∀ i, key ≠ (x.session i).saveKey) →
        (x.run turns).saves.entries.get? key = x.saves.entries.get? key := by
  have hkeys := keysDiffer_of_key hkey hid hdiffer
  refine ⟨fun i => ?_, fun key hother => get?_run hother turns⟩
  obtain ⟨hseen, hrun⟩ := AlikeFor.run (i := i) ⟨rfl, rfl, hsaves, hsaves⟩ hkeys turns
  exact ⟨hseen.symm, hrun.session.symm, hrun.record.symm⟩

/-- The names of two players. What the second one is called ends like a key of the first one. -/
def namesInCastle : Bool → Option String
  | false => none
  | true => some " castle:Guest "

/-- The two of them in the castle, before either has begun. -/
def twoInCastle : Shared Bool where
  session i := .new "castle" "Castle" Library.standardWorldFile
    (Saves.key "save:" "castle" (namesInCastle i)) .starting
  saves := .empty

/-- The two of them take turns: the first one begins and uses the lever while the second one begins,
goes and leaves. -/
def turnsInCastle : List (Turn Bool) :=
  [⟨false, Session.castle, .start⟩, ⟨true, Session.castle, .start⟩,
    ⟨false, Session.castle, .input "benutze lever"⟩, ⟨true, Session.castle, .input "gehe nord"⟩,
    ⟨true, Session.castle, .leave⟩]

/-- The two players in the castle do not disturb each other. -/
theorem undisturbed_in_castle :
    ((∀ i, (twoInCastle.session i).saveKey =
        Saves.key "save:" (twoInCastle.session i).id (namesInCastle i)) ∧
      (∀ i, ':' ∉ (twoInCastle.session i).id.toList) ∧
      (Function.Injective fun i =>
        ((twoInCastle.session i).id, Saves.identityName (namesInCastle i))) ∧
      twoInCastle.saves.Reliable) ∧
    (∀ i, seen i twoInCastle turnsInCastle = seen i twoInCastle (own i turnsInCastle) ∧
        (twoInCastle.run turnsInCastle).session i =
          (twoInCastle.run (own i turnsInCastle)).session i ∧
        (twoInCastle.run turnsInCastle).record i =
          (twoInCastle.run (own i turnsInCastle)).record i) ∧
      ∀ key, (∀ i, key ≠ (twoInCastle.session i).saveKey) →
        (twoInCastle.run turnsInCastle).saves.entries.get? key =
          twoInCastle.saves.entries.get? key := by
  have hkey : ∀ i, (twoInCastle.session i).saveKey =
      Saves.key "save:" (twoInCastle.session i).id (namesInCastle i) := fun _ => rfl
  have hid : ∀ i, ':' ∉ (twoInCastle.session i).id.toList := by decide
  have hdiffer : Function.Injective fun i =>
      ((twoInCastle.session i).id, Saves.identityName (namesInCastle i)) := by
    have hnames : Saves.identityName (namesInCastle false) ≠
      Saves.identityName (namesInCastle true) := by decide +kernel
    intro i j hij
    cases i <;> cases j
    · rfl
    · exact absurd (Prod.ext_iff.mp hij).2 hnames
    · exact absurd (Prod.ext_iff.mp hij).2.symm hnames
    · rfl
  have hsaves : twoInCastle.saves.Reliable := Saves.reliable_empty
  exact ⟨⟨hkey, hid, hdiffer, hsaves⟩,
    undisturbed twoInCastle hkey hid hdiffer hsaves turnsInCastle⟩

end Shared

end TextAdventure
