import Mathlib.Data.Prod.Lex
import Mathlib.Logic.Function.Iterate
import Mathlib.Logic.Relation
import TextAdventure.Proofs.Act

/-!
# Every script comes to its end

Scripts are played here by an interpreter that does one thing at a time (`Interpreter.next`). It
keeps a count of the levels that are open, which goes up when a script or an arrival begins and down
when it ends, and a list of what is still to be done. Nothing in the interpreter bounds how long it
runs: a room may call for its own script, and which script that is turns out only when the room is
fetched.

What a call calls for weighs less than the call itself (`Call.weight_lt_of_mem_turn`), where the
levels that are not used up count first and the steps that are left count last. So the interpreter
comes to the end of every call, the count is then what it was before, and what was done is what
`Nested.within` says, which counts the levels that are left instead (`Call.comes_to_end`).
-/

namespace TextAdventure

open Scene (maxLevels)

/-- What can be called for while scripts run. -/
inductive Call where
  /-- A script runs, one level deeper. -/
  | script (script : Script)
  /-- The steps that are left of a script are done. -/
  | steps (left : Script)
  /-- One step is done. -/
  | step (s : Step)
  /-- The room at which the player has arrived is shown and its script is called for, one level
  deeper. -/
  | arrival
  /-- The room in which the player is gets shown, and its script is called for. -/
  | room (firstTime : Bool)
  /-- A fight starts. -/
  | fight (enemy : String)

/-- What is still to be done. -/
inductive Pending where
  /-- A call. -/
  | call (c : Call)
  /-- The level that was opened last comes to its end. -/
  | close

/-- A state of the interpreter. -/
structure Interpreter where
  /-- How many levels are open. -/
  depth : Nat
  play : Play
  /-- What is still to be done, the next first. -/
  pending : List Pending
  /-- The failure for which the calls that are still pending are dropped. -/
  failure : Option Failure

namespace Step

/-- What a step does itself, before it calls for anything. -/
def own : Step → Act Unit
  | fight enemy => Act.note (.performed (.fight enemy))
  | s => Nested.step ⟨fun _ => return (), return ()⟩ s

/-- What a step calls for. -/
def calls (s : Step) (player : Player) : List Call :=
  match s with
  | branch key equals onMatch otherwise =>
    [.script (if player.hasFlag key equals then onMatch else otherwise)]
  | transition _ => [.arrival]
  | fight enemy => [.fight enemy]
  | _ => []

end Step

namespace Call

/-- What a call does itself, and what it calls for then. A script and an arrival do so inside a
level. -/
def body : Call → Act (List Call)
  | script [] => return []
  | script (s :: ss) => return [steps (s :: ss)]
  | steps [] => return []
  | steps (s :: ss) => return [step s, steps ss]
  | step s => do
    s.own
    return s.calls (← Act.player)
  | arrival => return [room true]
  | room firstTime => return [script (← Scene.render firstTime)]
  | fight enemy => do
    Fight.start enemy
    return []

/-- Whether a call needs a level of its own. An empty script needs none. -/
def needsLevel : Call → Bool
  | script s => !s.isEmpty
  | arrival => true
  | _ => false

end Call

namespace Interpreter

/-- The interpreter after something was done at a depth that calls for more. -/
def ofResult (depth : Nat) : EStateM.Result Failure Play (List Call) → Interpreter
  | .ok calls p => ⟨depth, p, calls.map .call, none⟩
  | .error e p => ⟨depth, p, [], some e⟩

end Interpreter

/-- The interpreter after a call was taken up at a depth, with what is pending on account of the
call. -/
def Call.turn (c : Call) (depth : Nat) (p : Play) : Interpreter :=
  if c.needsLevel then
    if maxLevels ≤ depth then Interpreter.ofResult depth ((do Scene.tooDeep; return []) p)
    else
      let m := Interpreter.ofResult (depth + 1) (c.body (p.noting .opened))
      { m with pending := m.pending ++ [.close] }
  else Interpreter.ofResult depth (c.body p)

namespace Interpreter

/-- The interpreter after one thing more was done. -/
def next (m : Interpreter) : Interpreter :=
  match m.pending with
  | [] => m
  | .close :: rest =>
    { m with depth := m.depth - 1, play := m.play.noting .closed, pending := rest }
  | .call c :: rest =>
    match m.failure with
    | some _ => { m with pending := rest }
    | none =>
      let t := c.turn m.depth m.play
      { t with pending := t.pending ++ rest }

/-- The interpreter that takes up a call at a depth, where more is pending. -/
def taking (depth : Nat) (p : Play) (c : Call) (rest : List Pending) : Interpreter :=
  ⟨depth, p, .call c :: rest, none⟩

/-- The interpreter that came to the end of something at a depth, where more is pending. -/
def ended (depth : Nat) (rest : List Pending) : EStateM.Result Failure Play Unit → Interpreter
  | .ok _ p => ⟨depth, p, rest, none⟩
  | .error e p => ⟨depth, p, rest, some e⟩

/-- A state comes right after another, in which no more levels are open than there may be. -/
def Steps (m m' : Interpreter) : Prop := m.depth ≤ maxLevels ∧ m.next = m'

/-- The interpreter goes on from one state to another, and no more levels are open on the way than
there may be. -/
abbrev Goes : Interpreter → Interpreter → Prop := Relation.ReflTransGen Steps

/-- An interpreter that has nothing to do stays as it is. -/
theorem iterate_next_of_idle {m : Interpreter} (h : m.pending = []) (n : Nat) :
    Interpreter.next^[n] m = m := by
  have hnext : m.next = m := by
    unfold next
    rw [h]
  exact Function.iterate_fixed hnext n

/-- An interpreter that goes on until it has nothing to do gets there after some things done, and
no more levels are open at any moment than there may be. -/
theorem Goes.exists_iterate {m m' : Interpreter} (h : Goes m m') (hidle : m'.pending = [])
    (hdepth : m'.depth ≤ maxLevels) :
    (∃ n, Interpreter.next^[n] m = m') ∧
      ∀ n, (Interpreter.next^[n] m).depth ≤ maxLevels := by
  induction h using Relation.ReflTransGen.head_induction_on with
  | refl =>
    refine ⟨⟨0, rfl⟩, fun n => ?_⟩
    rw [iterate_next_of_idle hidle]
    exact hdepth
  | head hstep _ ih =>
    obtain ⟨hm, rfl⟩ := hstep
    obtain ⟨⟨n, hn⟩, hall⟩ := ih
    refine ⟨⟨n + 1, hn⟩, fun k => ?_⟩
    cases k with
    | zero => exact hm
    | succ k => exact hall k

/-- Calls that are dropped do nothing. -/
theorem goes_dropped {depth : Nat} (hdepth : depth ≤ maxLevels) (p : Play) (e : Failure)
    (calls : List Call) (rest : List Pending) :
    Goes ⟨depth, p, calls.map .call ++ rest, some e⟩ ⟨depth, p, rest, some e⟩ := by
  induction calls with
  | nil => exact .refl
  | cons c calls ih => exact .head ⟨hdepth, rfl⟩ ih

end Interpreter

namespace Call

open Interpreter (Goes)

/-- How much a call weighs among the calls of its level. What it calls for at the same level weighs
less, so steps weigh more the more of them are left. -/
def size : Call → Nat
  | fight _ => 0
  | script _ => 1
  | arrival => 1
  | step _ => 2
  | room _ => 2
  | steps left => left.length + 3

/-- How much a call weighs at a depth: the levels that are not used up count first. -/
def weight (c : Call) (depth : Nat) : ℕ ×ₗ ℕ := toLex (maxLevels - depth, c.size)

/-- The act of a call when so many levels are left. -/
def act (levels : Nat) : Call → Act Unit
  | script s => (Nested.within levels).script s
  | steps left => (Nested.within levels).steps left
  | step s => (Nested.within levels).step s
  | arrival => (Nested.within levels).arrival
  | room firstTime => do (Nested.within levels).script (← Scene.render firstTime)
  | fight enemy => Fight.start enemy

/-- The act of a script with all levels left. -/
example (s : Script) : (script s).act maxLevels = Scene.run s := rfl

/-- The act of a room with all levels left. -/
example (firstTime : Bool) : (room firstTime).act maxLevels = Scene.enter firstTime := rfl

/-- What a step calls for weighs less than the step. -/
theorem size_lt_of_mem_calls {s : Step} {player : Player} {c : Call} (h : c ∈ s.calls player) :
    c.size < (step s).size := by
  cases s with
  | branch _ _ _ _ =>
    rw [List.mem_singleton.mp h]
    exact Nat.one_lt_two
  | transition _ =>
    rw [List.mem_singleton.mp h]
    exact Nat.one_lt_two
  | fight _ =>
    rw [List.mem_singleton.mp h]
    exact Nat.two_pos
  | _ => cases h

/-- What a call calls for without a level of its own weighs less than the call. -/
theorem ends_body_size {c : Call} (h : c.needsLevel = false) (p : Play) :
    c.body.Ends p (fun calls _ => ∀ c' ∈ calls, c'.size < c.size) fun _ _ => True := by
  -- What is called for is a part of the call, except for scripts and arrivals, which have a level.
  cases c with
  | script s =>
    cases s with
    | nil => exact fun _ hc => by cases hc
    | cons s ss => cases h
  | steps left =>
    cases left with
    | nil => exact fun _ hc => by cases hc
    | cons s ss =>
      intro c hc
      rcases List.mem_cons.mp hc with rfl | hc
      · simp [size]
      · rw [List.mem_singleton.mp hc]
        simp [size]
  | step s =>
    unfold body
    rw [Act.ends_bind]
    refine Act.ends_of_forall (fun _ q => ?_) fun _ _ => trivial
    exact fun _ hc => size_lt_of_mem_calls hc
  | arrival => cases h
  | room firstTime =>
    unfold body
    rw [Act.ends_bind]
    refine Act.ends_of_forall (fun s q c hc => ?_) fun _ _ => trivial
    rw [List.mem_singleton.mp hc]
    exact Nat.one_lt_two
  | fight enemy =>
    unfold body
    rw [Act.ends_bind]
    exact Act.ends_of_forall (fun _ _ _ hc => by cases hc) fun _ _ => trivial

/-- A step does its own part, and then what it calls for is done. -/
theorem step_eq (levels : Nat) (s : Step) : (Nested.within levels).step s =
    (s.own >>= fun _ => Act.player >>= fun player => (s.calls player).forM (act levels)) := by
  have hleaf : ∀ own : Act Unit, own = own >>= fun _ => Act.player >>= fun _ => pure () :=
    fun own => bind_pure_unit.symm
  cases s with
  | branch key equals onMatch otherwise =>
    simp only [Step.calls, List.forM_eq_forM, List.forM_cons, List.forM_nil, bind_pure_unit]
    rfl
  | transition room =>
    simp only [Step.calls, List.forM_eq_forM, List.forM_cons, List.forM_nil, bind_pure_unit]
    unfold Step.own Nested.step
    simp only [Step.isUnrecognized, Bool.not_false, if_true, bind_assoc]
    rfl
  | fight enemy =>
    simp only [Step.calls, List.forM_eq_forM, List.forM_cons, List.forM_nil, bind_pure_unit]
    rfl
  | _ => exact hleaf _

/-- A call without a level of its own does its own part, and then what it calls for is done. -/
theorem act_of_not_needsLevel {c : Call} (h : c.needsLevel = false) (levels : Nat) :
    c.act levels = c.body >>= fun calls => calls.forM (act levels) := by
  -- The pieces of each kind of call are put together in the order of its acts.
  cases c with
  | script s =>
    cases s with
    | nil => cases levels <;> rfl
    | cons s ss => cases h
  | steps left =>
    cases left with
    | nil => rfl
    | cons s ss =>
      simp only [body, pure_bind, List.forM_eq_forM, List.forM_cons, List.forM_nil, bind_pure_unit]
      rfl
  | step s =>
    simp only [body, bind_assoc, pure_bind]
    exact step_eq levels s
  | arrival => cases h
  | room firstTime =>
    simp only [body, bind_assoc, pure_bind, List.forM_eq_forM, List.forM_cons, List.forM_nil,
      bind_pure_unit]
    rfl
  | fight enemy =>
    simp only [body, bind_assoc, pure_bind, List.forM_eq_forM, List.forM_nil, bind_pure_unit]
    rfl

/-- A call with a level of its own does the same inside the level. -/
theorem act_succ {c : Call} (h : c.needsLevel = true) (levels : Nat) :
    c.act (levels + 1) = Act.level (c.body >>= fun calls => calls.forM (act levels)) := by
  cases c with
  | script s =>
    cases s with
    | nil => cases h
    | cons s ss =>
      simp only [body, pure_bind, List.forM_eq_forM, List.forM_cons, List.forM_nil, bind_pure_unit]
      rfl
  | arrival =>
    simp only [body, pure_bind, List.forM_eq_forM, List.forM_cons, List.forM_nil, bind_pure_unit]
    rfl
  | _ => cases h

/-- A call with a level of its own is left out when the levels are used up. -/
theorem act_zero {c : Call} (h : c.needsLevel = true) : c.act 0 = Scene.tooDeep := by
  cases c with
  | script s =>
    cases s with
    | nil => cases h
    | cons s ss => rfl
  | arrival => rfl
  | _ => cases h

/-- What is called for one level deeper weighs less. -/
theorem weight_lt_of_deeper {depth : Nat} (h : depth < maxLevels) (c c' : Call) :
    c'.weight (depth + 1) < c.weight depth := by
  refine Prod.Lex.toLex_lt_toLex.mpr (.inl ?_)
  show maxLevels - (depth + 1) < maxLevels - depth
  omega

/-- What a call calls for at the same depth weighs less than the call. -/
theorem weight_lt_of_body {c c' : Call} {p q : Play} {calls : List Call}
    (h : c.needsLevel = false) (hbody : c.body p = .ok calls q) (hc : c' ∈ calls) (depth : Nat) :
    c'.weight depth < c.weight depth := by
  have hsize := ends_body_size h p
  unfold Act.Ends at hsize
  rw [hbody] at hsize
  exact Prod.Lex.toLex_lt_toLex.mpr (.inr ⟨rfl, hsize c' hc⟩)

/-- A call that is left out. -/
theorem turn_of_full {c : Call} {depth : Nat} (h : c.needsLevel = true)
    (hdepth : maxLevels ≤ depth) (p : Play) :
    c.turn depth p = Interpreter.ofResult depth ((do Scene.tooDeep; return []) p) := by
  unfold turn
  rw [if_pos h, if_pos hdepth]

/-- A call with a level of its own opens it, and will close it. -/
theorem turn_of_needsLevel {c : Call} {depth : Nat} (h : c.needsLevel = true)
    (hdepth : depth < maxLevels) (p : Play) :
    c.turn depth p =
      let m := Interpreter.ofResult (depth + 1) (c.body (p.noting .opened))
      { m with pending := m.pending ++ [.close] } := by
  unfold turn
  rw [if_pos h, if_neg (Nat.not_le.mpr hdepth)]

/-- A call without a level of its own. -/
theorem turn_of_not_needsLevel {c : Call} (h : c.needsLevel = false) (depth : Nat) (p : Play) :
    c.turn depth p = Interpreter.ofResult depth (c.body p) := by
  unfold turn
  rw [if_neg (by simp [h])]

/-- What a call calls for weighs less than the call, whatever the state of play. -/
theorem weight_lt_of_mem_turn {c c' : Call} {depth : Nat} {p : Play}
    (h : .call c' ∈ (c.turn depth p).pending) :
    c'.weight (c.turn depth p).depth < c.weight depth := by
  cases hlevel : c.needsLevel with
  | true =>
    rcases Nat.lt_or_ge depth maxLevels with hdepth | hdepth
    · rw [turn_of_needsLevel hlevel hdepth]
      cases hbody : c.body (p.noting .opened) <;> exact weight_lt_of_deeper hdepth c c'
    · rw [turn_of_full hlevel hdepth] at h
      cases h
  | false =>
    rw [turn_of_not_needsLevel hlevel] at h ⊢
    cases hbody : c.body p with
    | ok calls q =>
      rw [hbody] at h
      obtain ⟨c'', hmem, heq⟩ := List.mem_map.mp h
      cases heq
      exact weight_lt_of_body hlevel hbody hmem depth
    | error e q =>
      rw [hbody] at h
      cases h

/-- A call comes to its end from a state of play, at a depth at which so many levels are left: what
was done is the act of the call, the count is as before, and what was pending is still pending. -/
def Completes (c : Call) (depth levels : Nat) (p : Play) : Prop :=
  ∀ rest, Goes (.taking depth p c rest) (.ended depth rest (c.act levels p))

variable {c : Call} {depth levels : Nat} {p : Play}

/-- Calls come to their end one after the other if each of them does. -/
theorem goes_forM (hdepth : depth ≤ maxLevels) {calls : List Call}
    (h : ∀ c ∈ calls, ∀ q, c.Completes depth levels q) (p : Play) (rest : List Pending) :
    Goes ⟨depth, p, calls.map .call ++ rest, none⟩
      (.ended depth rest (calls.forM (act levels) p)) := by
  induction calls generalizing p with
  | nil => exact .refl
  | cons c calls ih =>
    refine (h c List.mem_cons_self p (calls.map .call ++ rest)).trans ?_
    have hrest := ih fun c' hc' => h c' (List.mem_cons_of_mem _ hc')
    show Goes _ (.ended depth rest ((c.act levels >>= fun _ => calls.forM (act levels)) p))
    cases hact : c.act levels p with
    | ok _ q =>
      rw [Act.bind_of_ok hact]
      exact hrest q
    | error e q =>
      rw [Act.bind_of_error hact]
      exact Interpreter.goes_dropped hdepth q e calls rest

/-- What a call does itself and what it calls for come to their end. -/
theorem goes_body (hdepth : depth ≤ maxLevels)
    (h : ∀ calls q, c.body p = .ok calls q → ∀ c' ∈ calls, ∀ q, c'.Completes depth levels q)
    (rest : List Pending) :
    Goes { Interpreter.ofResult depth (c.body p) with
        pending := (Interpreter.ofResult depth (c.body p)).pending ++ rest }
      (.ended depth rest ((c.body >>= fun calls => calls.forM (act levels)) p)) := by
  cases hbody : c.body p with
  | ok calls q =>
    rw [Act.bind_of_ok hbody]
    exact goes_forM hdepth (h calls q hbody) q rest
  | error e q =>
    rw [Act.bind_of_error hbody]
    exact .refl

/-- At the end of a level the count is what it was before. -/
theorem goes_close (hdepth : depth < maxLevels) (rest : List Pending) (act : Act Unit)
    (p : Play) :
    Goes (.ended (depth + 1) (.close :: rest) (act (p.noting .opened)))
      (.ended depth rest (Act.level act p)) := by
  cases hact : act (p.noting .opened) with
  | ok _ q =>
    rw [Act.level_of_ok hact]
    exact .single ⟨hdepth, rfl⟩
  | error e q =>
    rw [Act.level_of_error hact]
    exact .single ⟨hdepth, rfl⟩

/-- To take up a call is to do its turn before what was pending. -/
theorem goes_turn (hdepth : depth ≤ maxLevels) (c : Call) (p : Play) (rest : List Pending) :
    Goes (.taking depth p c rest)
      { c.turn depth p with pending := (c.turn depth p).pending ++ rest } :=
  .single ⟨hdepth, rfl⟩

/-- A call that is left out comes to its end. -/
theorem completes_of_full (h : c.needsLevel = true) (p : Play) : c.Completes maxLevels 0 p := by
  intro rest
  have hturn := goes_turn le_rfl c p rest
  rw [turn_of_full h le_rfl] at hturn
  rw [act_zero h]
  exact hturn

/-- A call with a level of its own comes to its end if all that it calls for does, one level
deeper. -/
theorem completes_of_needsLevel (h : c.needsLevel = true) (hdepth : depth < maxLevels)
    (hcalled : ∀ calls q, c.body (p.noting .opened) = .ok calls q →
      ∀ c' ∈ calls, ∀ q, c'.Completes (depth + 1) levels q) :
    c.Completes depth (levels + 1) p := by
  intro rest
  have hturn := goes_turn hdepth.le c p rest
  rw [turn_of_needsLevel h hdepth] at hturn
  dsimp only at hturn
  rw [List.append_assoc] at hturn
  rw [act_succ h]
  exact hturn.trans ((goes_body hdepth hcalled (.close :: rest)).trans (goes_close hdepth rest _ p))

/-- A call without a level of its own comes to its end if all that it calls for does. -/
theorem completes_of_not_needsLevel (h : c.needsLevel = false) (hdepth : depth ≤ maxLevels)
    (hcalled : ∀ calls q, c.body p = .ok calls q → ∀ c' ∈ calls, ∀ q, c'.Completes depth levels q) :
    c.Completes depth levels p := by
  intro rest
  have hturn := goes_turn hdepth c p rest
  rw [turn_of_not_needsLevel h] at hturn
  rw [act_of_not_needsLevel h]
  exact hturn.trans (goes_body hdepth hcalled rest)

/-- Every call comes to its end where its level and those that are left make up all levels. -/
theorem completes (c : Call) (h : depth + levels = maxLevels) (p : Play) :
    c.Completes depth levels p := by
  -- The induction is on the weight of the call, by which all that it calls for comes to its end.
  generalize hw : c.weight depth = w
  induction w using WellFoundedLT.induction generalizing c depth levels p with
  | ind w ih =>
  subst hw
  cases hlevel : c.needsLevel with
  | true =>
    cases levels with
    | zero =>
      obtain rfl : depth = maxLevels := h
      exact completes_of_full hlevel p
    | succ levels =>
      have hdepth : depth < maxLevels := by omega
      refine completes_of_needsLevel hlevel hdepth fun _ _ _ c' _ q => ?_
      exact ih _ (weight_lt_of_deeper hdepth c c') c' (by omega) q rfl
  | false =>
    have hdepth : depth ≤ maxLevels := by omega
    refine completes_of_not_needsLevel hlevel hdepth fun _ _ hbody c' hc' q => ?_
    exact ih _ (weight_lt_of_body hlevel hbody hc' depth) c' h q rfl

/-- Every call comes to its end, over any content and from any state of play, at any depth that
there may be. What a call calls for weighs less than the call, in the order of the levels that are
not used up and then of the steps that are left. So the interpreter has nothing left to do after
some things done; then as many levels are open as before, whether the call succeeded or failed, and
what was done is the act of the call. At no moment are more levels open than there may be. -/
theorem comes_to_end (c : Call) (p : Play) {depth : Nat} (h : depth ≤ maxLevels) :
    (∀ (c₁ c₂ : Call) (d : Nat) (q : Play), .call c₂ ∈ (c₁.turn d q).pending →
      c₂.weight (c₁.turn d q).depth < c₁.weight d) ∧
    (∃ n, Interpreter.next^[n] (.taking depth p c []) =
      .ended depth [] (c.act (maxLevels - depth) p)) ∧
    ∀ n, (Interpreter.next^[n] (.taking depth p c [])).depth ≤ maxLevels := by
  refine ⟨fun _ _ _ _ => weight_lt_of_mem_turn, ?_⟩
  have hends : ∀ r, (Interpreter.ended depth [] r).pending = [] ∧
      (Interpreter.ended depth [] r).depth = depth :=
    fun r => by cases r <;> exact ⟨rfl, rfl⟩
  have hgoes := completes c (Nat.add_sub_cancel' h) p []
  exact hgoes.exists_iterate (hends _).1 ((hends _).2.trans_le h)

/-- A hall whose script leads into the hall again. -/
def circle : Source
  | "rooms/hall.json" => .ok (Json.object [
      ("id", .string "hall"),
      ("on_first_enter", .array [.stringList ["transition", "hall"]])]).compactText
  | path => .error (.load path "missing")

/-- A player in that hall. -/
def inCircle : Play where
  id := "circle"
  title := "Circle"
  stats := .starting
  library := .empty Library.standardWorldFile
  saveKey := "save"
  player := .fresh "hall" .empty .starting
  active := true
  source := circle
  saves := .empty
  journal := []

/-- The interpreter at the end of showing that hall. -/
def circleEnded : Interpreter := .ended 0 [] ((room true).act maxLevels inCircle)

/-- The hall that leads into itself is shown as often as there are levels for it: its script takes
one level, and the arrival that the script calls for takes another. -/
theorem comes_to_end_in_circle :
    0 ≤ maxLevels ∧
    (∃ n, Interpreter.next^[n] (.taking 0 inCircle (room true) []) = circleEnded) ∧
    (∀ n, (Interpreter.next^[n] (.taking 0 inCircle (room true) [])).depth ≤ maxLevels) ∧
    circleEnded.play.shown = List.replicate (1 + maxLevels / 2) ("hall", true) ∧
    circleEnded.failure.isNone = true := by
  have hends := comes_to_end (room true) inCircle (Nat.zero_le maxLevels)
  exact ⟨Nat.zero_le _, hends.2.1, hends.2.2, by decide +kernel⟩

end Call

end TextAdventure
