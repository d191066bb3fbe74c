import TextAdventure.Proofs.Descent
import TextAdventure.Proofs.Step
import TextAdventure.Proofs.Unabridged

/-!
# Scripts without a limit on levels

`Call.Unlimited` says how a call ends if levels may nest as deep as they like, and how many of them
nest: a script that is not empty takes one level, and so does an arrival. Nothing is counted on the
way; the number is read off the finished execution. An execution that has no end, as on content
that leads into itself, is told of by `Call.Exceeds`: in the order in which things are done, the
call comes to a point at which more levels are open than a given number.

The acts of play, which count the levels that are left, agree with both (`Scene.limit_unseen`). As
long as an execution nests no deeper than `Scene.maxLevels`, the limit cannot be told from the way
it ends; what goes beyond is told of by the line that says so.
-/

namespace TextAdventure

open Scene (maxLevels)

/-! ### Executions without a limit -/

/-- What a flag makes a branch run: the first script if the flag is set to an equal value, and the
second one if it is set to another value or not at all. -/
inductive Player.Chooses (p : Player) (key : String) (equals : Json) (onMatch otherwise : Script) :
    Script → Prop where
  /-- The flag has an equal value. -/
  | onMatch {value : Json} (hset : p.flags.get? key = some value)
    (hequal : value.same equals = true) : Chooses p key equals onMatch otherwise onMatch
  /-- The flag has another value. -/
  | different {value : Json} (hset : p.flags.get? key = some value)
    (hother : value.same equals = false) : Chooses p key equals onMatch otherwise otherwise
  /-- The flag is not set. -/
  | unset (hunset : p.flags.get? key = none) : Chooses p key equals onMatch otherwise otherwise

namespace Play

/-- The state in which a transition has moved the player, who is not saved yet. -/
def relocated (p : Play) (room : String) : Play :=
  (p.performing (.transition room)).changing fun q => { q with location := room }

/-- The end of a level, after what was done in the level has ended. -/
def closing : EStateM.Result Failure Play Unit → EStateM.Result Failure Play Unit
  | .ok _ q => .ok () (q.noting .closed)
  | .error e q => .error e (q.noting .closed)

end Play

namespace Call

/-- A call ends in a certain way from a state of play where levels may nest without a limit, and so
many of them nest. -/
inductive Unlimited : Call → Play → EStateM.Result Failure Play Unit → Nat → Prop where
  /-- An empty script does nothing, and needs no level for it. -/
  | empty {p : Play} : Unlimited (.script []) p (.ok () p) 0
  /-- The steps of any other script are done in a level. -/
  | script {p : Play} {s : Step} {ss : Script} {r : EStateM.Result Failure Play Unit} {n : Nat}
    (hsteps : Unlimited (.steps (s :: ss)) (p.noting .opened) r n) :
    Unlimited (.script (s :: ss)) p (Play.closing r) (n + 1)
  /-- No steps are left. -/
  | noSteps {p : Play} : Unlimited (.steps []) p (.ok () p) 0
  /-- A step succeeds, and those after it follow. -/
  | next {p q : Play} {s : Step} {ss : Script} {r : EStateM.Result Failure Play Unit} {m n : Nat}
    (hfirst : Unlimited (.step s) p (.ok () q) m) (hrest : Unlimited (.steps ss) q r n) :
    Unlimited (.steps (s :: ss)) p r (max m n)
  /-- A step fails, and those after it are not done. -/
  | failed {p q : Play} {s : Step} {ss : Script} {e : Failure} {n : Nat}
    (hfirst : Unlimited (.step s) p (.error e q) n) :
    Unlimited (.steps (s :: ss)) p (.error e q) n
  /-- A line is said. -/
  | message {p : Play} (text : String) :
    Unlimited (.step (.message text)) p
      (.ok () ((p.performing (.message text)).noting (.said text))) 0
  /-- A picture is shown. -/
  | art {p : Play} (file : String) (size : Option UInt32) :
    Unlimited (.step (.art file size)) p (Act.showArt file (p.performing (.art file size))) 0
  /-- The player is changed and saved. -/
  | revision {p : Play} {s : Step} {revision : Step.Revision} (h : s.revision? = some revision) :
    Unlimited (.step s) p (Act.persist ((p.performing s).revised revision)) 0
  /-- One of two scripts runs. -/
  | branch {p : Play} {key : String} {equals : Json} {onMatch otherwise chosen : Script}
    {r : EStateM.Result Failure Play Unit} {n : Nat}
    (hchosen : p.player.Chooses key equals onMatch otherwise chosen)
    (hscript : Unlimited (.script chosen) (p.performing (.branch key equals onMatch otherwise))
      r n) :
    Unlimited (.step (.branch key equals onMatch otherwise)) p r n
  /-- The player moves, but cannot be saved. -/
  | unsaved {p q : Play} {room : String} {e : Failure}
    (hsave : Act.persist (p.relocated room) = .error e q) :
    Unlimited (.step (.transition room)) p (.error e q) 0
  /-- The player moves, is saved and arrives. -/
  | transition {p q : Play} {room : String} {r : EStateM.Result Failure Play Unit} {n : Nat}
    (hsave : Act.persist (p.relocated room) = .ok () q) (harrival : Unlimited .arrival q r n) :
    Unlimited (.step (.transition room)) p r n
  /-- A fight is called for. -/
  | trigger {p : Play} {enemy : String} {r : EStateM.Result Failure Play Unit} {n : Nat}
    (hfight : Unlimited (.fight enemy) (p.performing (.fight enemy)) r n) :
    Unlimited (.step (.fight enemy)) p r n
  /-- A record that is no effect is named. -/
  | unrecognized {p : Play} (raw : Json) :
    Unlimited (.step (.unrecognized raw)) p
      (.ok () (p.noting (.said ("Unbekanntes Event: " ++ Step.kindOfUnrecognized raw)))) 0
  /-- The room at which the player arrives is entered for the first time, in a level. -/
  | arrival {p : Play} {r : EStateM.Result Failure Play Unit} {n : Nat}
    (hroom : Unlimited (.room true) (p.noting .opened) r n) :
    Unlimited .arrival p (Play.closing r) (n + 1)
  /-- A room cannot be shown. -/
  | unshown {p q : Play} {firstTime : Bool} {e : Failure}
    (hshow : Scene.render firstTime p = .error e q) :
    Unlimited (.room firstTime) p (.error e q) 0
  /-- A room is shown, and its script runs. -/
  | room {p q : Play} {firstTime : Bool} {script : Script}
    {r : EStateM.Result Failure Play Unit} {n : Nat}
    (hshow : Scene.render firstTime p = .ok script q) (hscript : Unlimited (.script script) q r n) :
    Unlimited (.room firstTime) p r n
  /-- A fight starts. -/
  | fight {p : Play} (enemy : String) : Unlimited (.fight enemy) p (Fight.start enemy p) 0

/-- From a state of play a call comes to a point at which more than so many levels are open, with
everything before done in order and without a failure. -/
inductive Exceeds : Call → Play → Nat → Prop where
  /-- A script that is not empty takes a level. -/
  | script {p : Play} {s : Step} {ss : Script} : Exceeds (.script (s :: ss)) p 0
  /-- It happens in the level of a script. -/
  | inScript {p : Play} {s : Step} {ss : Script} {n : Nat}
    (hsteps : Exceeds (.steps (s :: ss)) (p.noting .opened) n) :
    Exceeds (.script (s :: ss)) p (n + 1)
  /-- It happens in the first step. -/
  | first {p : Play} {s : Step} {ss : Script} {n : Nat} (hfirst : Exceeds (.step s) p n) :
    Exceeds (.steps (s :: ss)) p n
  /-- It happens after the first step. -/
  | later {p q : Play} {s : Step} {ss : Script} {m n : Nat}
    (hfirst : Unlimited (.step s) p (.ok () q) m) (hrest : Exceeds (.steps ss) q n) :
    Exceeds (.steps (s :: ss)) p n
  /-- It happens in the script that a branch runs. -/
  | branch {p : Play} {key : String} {equals : Json} {onMatch otherwise chosen : Script} {n : Nat}
    (hchosen : p.player.Chooses key equals onMatch otherwise chosen)
    (hscript : Exceeds (.script chosen) (p.performing (.branch key equals onMatch otherwise)) n) :
    Exceeds (.step (.branch key equals onMatch otherwise)) p n
  /-- It happens when the player arrives. -/
  | transition {p q : Play} {room : String} {n : Nat}
    (hsave : Act.persist (p.relocated room) = .ok () q) (harrival : Exceeds .arrival q n) :
    Exceeds (.step (.transition room)) p n
  /-- An arrival takes a level. -/
  | arrival {p : Play} : Exceeds .arrival p 0
  /-- It happens in the level of an arrival. -/
  | inArrival {p : Play} {n : Nat} (hroom : Exceeds (.room true) (p.noting .opened) n) :
    Exceeds .arrival p (n + 1)
  /-- It happens in the script of a room. -/
  | room {p q : Play} {firstTime : Bool} {script : Script} {n : Nat}
    (hshow : Scene.render firstTime p = .ok script q) (hscript : Exceeds (.script script) q n) :
    Exceeds (.room firstTime) p n

end Call

namespace Act

/-- A level ends after what was done in it. -/
theorem level_eq (act : Act Unit) (p : Play) :
    level act p = Play.closing (act (p.noting .opened)) := by
  cases h : act (p.noting .opened) with
  | ok _ q => exact level_of_ok h
  | error e q => exact level_of_error h

end Act

namespace Play

/-- A level ends in the state that was reached in it. -/
theorem atEnd_closing (r : EStateM.Result Failure Play Unit) :
    atEnd (closing r) = (atEnd r).noting .closed := by
  cases r <;> rfl

end Play

/-- A branch chooses by the flag of the player. -/
theorem Player.chooses_iff {p : Player} {key : String} {equals : Json}
    {onMatch otherwise chosen : Script} :
    p.Chooses key equals onMatch otherwise chosen ↔
      chosen = if p.hasFlag key equals then onMatch else otherwise := by
  unfold hasFlag
  constructor
  · rintro (⟨hset, hequal⟩ | ⟨hset, hother⟩ | hunset)
    · simp [hset, hequal]
    · simp [hset, hother]
    · simp [hunset]
  · rintro rfl
    cases hflag : p.flags.get? key with
    | none => exact .unset hflag
    | some value =>
      cases hsame : value.same equals with
      | true =>
        simp only [hsame, if_true]
        exact .onMatch hflag hsame
      | false =>
        simp only [hsame, Bool.false_eq_true, if_false]
        exact .different hflag hsame

/-! ### What the acts of play have to do with it -/

namespace Nested

variable (inner : Nested) (p : Play)

/-- A picture is shown. -/
theorem step_art_eq (file : String) (size : Option UInt32) :
    inner.step (.art file size) p = Act.showArt file (p.performing (.art file size)) := by
  refine Act.eq_of_ends ?_
  rw [ends_step_art]
  exact Act.ends_self _ _

/-- A step that changes the player saves it. -/
theorem step_revision_eq {s : Step} {revision : Step.Revision} (h : s.revision? = some revision) :
    inner.step s p = Act.persist ((p.performing s).revised revision) := by
  refine Act.eq_of_ends ?_
  rw [ends_step_revision h]
  exact Act.ends_self _ _

/-- A fight starts. -/
theorem step_fight_eq (enemy : String) :
    inner.step (.fight enemy) p = Fight.start enemy (p.performing (.fight enemy)) := by
  refine Act.eq_of_ends ?_
  rw [ends_step_fight]
  exact Act.ends_self _ _

/-- A branch runs the script that the flag chooses. -/
theorem step_branch_eq {key : String} {equals : Json} {onMatch otherwise chosen : Script}
    (h : p.player.Chooses key equals onMatch otherwise chosen) :
    inner.step (.branch key equals onMatch otherwise) p =
      inner.script chosen (p.performing (.branch key equals onMatch otherwise)) := by
  rw [Player.chooses_iff.mp h]
  refine Act.eq_of_ends ?_
  rw [ends_step_branch]
  exact Act.ends_self _ _

/-- A transition saves the player in its new room before the arrival. -/
theorem step_transition_eq (room : String) :
    inner.step (.transition room) p =
      (Act.persist >>= fun _ => inner.arrival) (p.relocated room) := by
  refine Act.eq_of_ends ?_
  rw [ends_step_transition, ← Act.ends_bind]
  exact Act.ends_self _ _

end Nested

namespace Call

variable {c : Call} {p q : Play} {r r' : EStateM.Result Failure Play Unit} {m n : Nat}

/-- A call that nests no deeper than there are levels left ends as it does without a limit. -/
theorem act_of_unlimited (h : Unlimited c p r m) (hlevels : m ≤ n) : c.act n p = r := by
  -- By induction on the run without a limit. A script and an arrival use up a level, so the number
  -- of levels that are left must vary.
  induction h generalizing n with
  | empty => cases n <;> rfl
  -- There is a level for the script, because it nests one deeper than its steps.
  | @script p s ss r m _ ih =>
    obtain ⟨k, rfl⟩ : ∃ k, n = k + 1 := ⟨n - 1, by omega⟩
    show Act.level ((steps (s :: ss)).act k) p = _
    rw [Act.level_eq, ih (by omega)]
  | noSteps => rfl
  | @next p q s ss r m m' _ _ ihfirst ihrest =>
    show ((step s).act n >>= fun _ => (steps ss).act n) p = r
    rw [Act.bind_of_ok (ihfirst (by omega))]
    exact ihrest (by omega)
  | @failed p q s ss e m _ ih =>
    show ((step s).act n >>= fun _ => (steps ss).act n) p = _
    exact Act.bind_of_error (ih hlevels)
  | @message p text => rfl
  | art file size => exact Nested.step_art_eq (Nested.within n) _ file size
  | revision h => exact Nested.step_revision_eq (Nested.within n) _ h
  | branch hchosen _ ih =>
    exact (Nested.step_branch_eq (Nested.within n) _ hchosen).trans (ih hlevels)
  | unsaved hsave =>
    exact (Nested.step_transition_eq (Nested.within n) _ _).trans (Act.bind_of_error hsave)
  | transition hsave _ ih =>
    refine (Nested.step_transition_eq (Nested.within n) _ _).trans ?_
    rw [Act.bind_of_ok hsave]
    exact ih hlevels
  | trigger _ ih => exact (Nested.step_fight_eq (Nested.within n) _ _).trans (ih hlevels)
  | unrecognized raw => rfl
  | @arrival p r m _ ih =>
    obtain ⟨k, rfl⟩ : ∃ k, n = k + 1 := ⟨n - 1, by omega⟩
    show Act.level ((room true).act k) p = _
    rw [Act.level_eq, ih (by omega)]
  | unshown hshow => exact Act.bind_of_error hshow
  | room hshow _ ih =>
    show (Scene.render _ >>= fun script => (Call.script script).act n) _ = _
    rw [Act.bind_of_ok hshow]
    exact ih hlevels
  | fight enemy => rfl

/-- Without a limit a call ends in one way only. -/
theorem Unlimited.result_unique (h : Unlimited c p r m) (h' : Unlimited c p r' n) : r = r' :=
  (act_of_unlimited h (Nat.le_max_left m n)).symm.trans
    (act_of_unlimited h' (Nat.le_max_right m n))

/-- Without a limit nothing is left out. -/
theorem Unlimited.unabridged (h : Unlimited c p r n) : p.Unabridged (Play.atEnd r) := by
  -- What an act of its own leaves out is known from its discipline: nothing.
  have hbodily := Discipline.bodily_unabridged
  have hend : ∀ {act : Act Unit} (p : Play), Promise.unabridged.discipline.Allows act →
      p.Unabridged (Play.atEnd (act p)) :=
    fun _ hact => Act.ok_atEnd (c := .unabridged) id hact trivial
  -- A level that is opened and closed adds two events, and neither of them is left out.
  have hlevel : ∀ {p : Play} {r}, (p.noting .opened).Unabridged (Play.atEnd r) →
      p.Unabridged (Play.atEnd (Play.closing r)) := by
    intro p r hr
    have hopened : p.Unabridged (p.noting .opened) := .of_cons rfl (by simp)
    rw [Play.atEnd_closing]
    exact (hopened.trans hr).trans (.of_cons rfl (by simp))
  -- So do the event of a step and the change that a step makes.
  have hbegun : ∀ (p : Play) (s : Step), p.Unabridged (p.performing s) :=
    fun p s => .of_cons rfl (by simp)
  have hrevised : ∀ (p : Play) (revision : Step.Revision), p.Unabridged (p.revised revision) :=
    fun p revision => ⟨_, rfl, by simp⟩
  -- By induction on the run: each event of it is one of the above or was told by a smaller run.
  induction h with
  | empty => exact .of_eq rfl
  | script _ ih => exact hlevel ih
  | noSteps => exact .of_eq rfl
  | next _ _ ihfirst ihrest => exact ihfirst.trans ihrest
  | failed _ ih => exact ih
  | @message p text => exact (hbegun p _).trans (.of_cons rfl (by simp))
  | art file size => exact (hbegun _ _).trans (hend _ (hbodily.showArt file))
  | revision h => exact ((hbegun _ _).trans (hrevised _ _)).trans (hend _ hbodily.persist)
  | branch _ _ ih => exact (hbegun _ _).trans ih
  -- A transition leaves nothing out whether or not its save succeeds, and then no more is left out
  -- by what it arrives at.
  | @unsaved p q room e hsave =>
    have hsaved := hend (p.relocated room) hbodily.persist
    rw [hsave] at hsaved
    exact (hbegun p (.transition room)).trans hsaved
  | @transition p q room r n hsave _ ih =>
    have hsaved := hend (p.relocated room) hbodily.persist
    rw [hsave] at hsaved
    exact ((hbegun p (.transition room)).trans hsaved).trans ih
  | trigger _ ih => exact (hbegun _ _).trans ih
  | unrecognized raw => exact .of_cons rfl (by simp)
  | arrival _ ih => exact hlevel ih
  | @unshown p q firstTime e hshow =>
    have hrendered := Discipline.render_unabridged firstTime p trivial
    unfold Act.Ends at hrendered
    rw [hshow] at hrendered
    exact hrendered
  | @room p q firstTime script r n hshow _ ih =>
    have hrendered := Discipline.render_unabridged firstTime p trivial
    unfold Act.Ends at hrendered
    rw [hshow] at hrendered
    exact hrendered.1.trans ih
  | fight enemy => exact hend _ (hbodily.startFight enemy)

/-- A call that goes beyond a number of levels nests deeper than that if it has an end. -/
theorem Exceeds.lt_of_unlimited (h : Exceeds c p n) (hends : Unlimited c p r m) : n < m := by
  -- Both runs have the same calls, so by induction on the one that goes too deep: the calls of the
  -- other are found by cases.
  induction h generalizing r m with
  | script =>
    cases hends with
    | script _ => exact Nat.succ_pos _
  | inScript _ ih =>
    cases hends with
    | script hsteps => exact Nat.succ_lt_succ (ih hsteps)
  | first _ ih =>
    cases hends with
    | next hfirst _ => exact (ih hfirst).trans_le (Nat.le_max_left _ _)
    | failed hfirst => exact ih hfirst
  -- The steps before the one that goes too deep end alike in both runs, because a run has one
  -- result.
  | later hsucceeds _ ih =>
    cases hends with
    | next hfirst hrest =>
      cases hsucceeds.result_unique hfirst
      exact (ih hrest).trans_le (Nat.le_max_right _ _)
    | failed hfirst => cases hsucceeds.result_unique hfirst
  -- The branch that is chosen is the same one in both runs.
  | branch hchosen _ ih =>
    cases hends with
    | branch hchosen' hscript =>
      rw [Player.chooses_iff] at hchosen hchosen'
      subst hchosen hchosen'
      exact ih hscript
    | revision h => cases h
  | transition hsave _ ih =>
    cases hends with
    | unsaved hsave' => cases hsave.symm.trans hsave'
    | transition hsave' harrival =>
      cases hsave.symm.trans hsave'
      exact ih harrival
    | revision h => cases h
  | arrival =>
    cases hends with
    | arrival _ => exact Nat.succ_pos _
  | inArrival _ ih =>
    cases hends with
    | arrival hroom => exact Nat.succ_lt_succ (ih hroom)
  | room hshow _ ih =>
    cases hends with
    | unshown hshow' => cases hshow.symm.trans hshow'
    | room hshow' hscript =>
      cases hshow.symm.trans hshow'
      exact ih hscript

/-- Where so many levels are left a call either has an end without a limit, no deeper than that, or
goes beyond, and then its act tells of it. -/
def Settles (n : Nat) (c : Call) : Prop :=
  ∀ p, (∃ r m, Unlimited c p r m ∧ m ≤ n) ∨
    (Exceeds c p n ∧ p.TellsLimit (Play.atEnd (c.act n p)))

/-- What a call leaves behind comes after what was there before. -/
theorem recorded_act (c : Call) (n : Nat) (p : Play) :
    p.journal <:+ (Play.atEnd (c.act n p)).journal := by
  have hscenic := Discipline.scenic_recorded
  obtain ⟨hscript, harrival⟩ := hscenic.within n
  have hact : Promise.recorded.discipline.Allows (c.act n) := by
    cases c with
    | script s => exact hscript s
    | steps left => exact hscenic.steps hscript harrival left
    | step s => exact hscenic.step hscript harrival s
    | arrival => exact harrival
    | room firstTime => exact (hscenic.render firstTime).bind hscript
    | fight enemy => exact hscenic.bodily.startFight enemy
  exact Act.ok_atEnd (c := .recorded) id hact trivial

/-- A step settles if scripts and arrivals do. -/
theorem settles_step (hscript : ∀ ss, Settles n (script ss)) (harrival : Settles n arrival)
    (s : Step) : Settles n (step s) := by
  intro p
  -- Most steps end at once, at no depth.
  cases s using Step.cases_on_revision? with
  | message text => exact .inl ⟨_, 0, .message text, Nat.zero_le n⟩
  | art file size => exact .inl ⟨_, 0, .art file size, Nat.zero_le n⟩
  | revision s r hr => exact .inl ⟨_, 0, .revision hr, Nat.zero_le n⟩
  | fight enemy => exact .inl ⟨_, 0, .trigger (.fight enemy), Nat.zero_le n⟩
  | unrecognized raw => exact .inl ⟨_, 0, .unrecognized raw, Nat.zero_le n⟩
  -- A branch settles as the script that is chosen.
  | branch key equals onMatch otherwise =>
    have hchosen := Player.chooses_iff.mpr
      (Eq.refl (if p.player.hasFlag key equals then onMatch else otherwise))
    have hact : (step (.branch key equals onMatch otherwise)).act n p = _ :=
      Nested.step_branch_eq (Nested.within n) p hchosen
    rcases hscript _ (p.performing (.branch key equals onMatch otherwise)) with
      ⟨r, m, hends, hm⟩ | ⟨hexceeds, htells⟩
    · exact .inl ⟨r, m, .branch hchosen hends, hm⟩
    · refine .inr ⟨.branch hchosen hexceeds, ?_⟩
      rw [hact]
      exact htells.after (List.suffix_cons _ _)
  -- A transition that cannot be saved ends there. Otherwise it settles as the arrival does.
  | transition room =>
    have hact : (step (.transition room)).act n p = _ :=
      Nested.step_transition_eq (Nested.within n) p room
    cases hsave : Act.persist (p.relocated room) with
    | error e q => exact .inl ⟨_, 0, .unsaved hsave, Nat.zero_le n⟩
    | ok _ q =>
      rcases harrival q with ⟨r, m, hends, hm⟩ | ⟨hexceeds, htells⟩
      · exact .inl ⟨r, m, .transition hsave hends, hm⟩
      · refine .inr ⟨.transition hsave hexceeds, ?_⟩
        -- What the arrival tells stays told, since the journal was only added to before it.
        have hsaved : p.journal <:+ q.journal := by
          have hrecorded := Act.ok_atEnd (c := .recorded) id Discipline.scenic_recorded.persist
            (p := p.relocated room) trivial
          rw [hsave] at hrecorded
          exact (List.suffix_cons _ _).trans hrecorded
        rw [hact, Act.bind_of_ok hsave]
        exact htells.after hsaved

/-- A room settles if its script does. -/
theorem settles_room (hscript : ∀ ss, Settles n (script ss)) (firstTime : Bool) :
    Settles n (room firstTime) := by
  intro p
  have hact : (room firstTime).act n p =
      (Scene.render firstTime >>= fun ss => (script ss).act n) p := rfl
  cases hshow : Scene.render firstTime p with
  | error e q => exact .inl ⟨_, 0, .unshown hshow, Nat.zero_le n⟩
  | ok ss q =>
    rcases hscript ss q with ⟨r, m, hends, hm⟩ | ⟨hexceeds, htells⟩
    · exact .inl ⟨r, m, .room hshow hends, hm⟩
    · refine .inr ⟨.room hshow hexceeds, ?_⟩
      have hshown := Discipline.scenic_recorded.render firstTime p trivial
      unfold Act.Ends at hshown
      rw [hshow] at hshown
      rw [hact, Act.bind_of_ok hshow]
      exact htells.after hshown.1

/-- The steps of a script settle if each step does. -/
theorem settles_steps (hstep : ∀ s, Settles n (step s)) (ss : Script) : Settles n (steps ss) := by
  -- Once the first step has ended, the others settle from where it ended.
  induction ss with
  | nil => exact fun p => .inl ⟨_, 0, .noSteps, Nat.zero_le n⟩
  | cons s ss ih =>
    intro p
    have hact : (steps (s :: ss)).act n p = ((step s).act n >>= fun _ => (steps ss).act n) p := rfl
    have hfirst := recorded_act (step s) n p
    rcases hstep s p with ⟨r, m, hends, hm⟩ | ⟨hexceeds, htells⟩
    · have hr := act_of_unlimited hends hm
      cases r with
      | error e q => exact .inl ⟨_, m, .failed hends, hm⟩
      | ok _ q =>
        rw [Act.bind_of_ok hr] at hact
        rw [hr] at hfirst
        rcases ih q with ⟨r', m', hends', hm'⟩ | ⟨hexceeds, htells⟩
        · exact .inl ⟨r', max m m', .next hends hends', Nat.max_le.mpr ⟨hm, hm'⟩⟩
        · exact .inr ⟨.later hends hexceeds, hact ▸ htells.after hfirst⟩
    · refine .inr ⟨.first hexceeds, ?_⟩
      cases hr : (step s).act n p with
      | error e q =>
        rw [Act.bind_of_error hr] at hact
        rw [hr] at htells
        rw [hact]
        exact htells
      | ok _ q =>
        -- The steps after the first do not take back what was told.
        rw [Act.bind_of_ok hr] at hact
        rw [hr] at htells
        rw [hact]
        exact htells.before (recorded_act (steps ss) n q)

/-- A call that is left out because no level is left tells of it. -/
theorem tellsLimit_tooDeep (p : Play) : p.TellsLimit (Play.atEnd (Scene.tooDeep p)) :=
  ⟨[], [], rfl⟩

/-- What is told in a level is told. -/
theorem tellsLimit_closing (h : (p.noting .opened).TellsLimit (Play.atEnd r)) :
    p.TellsLimit (Play.atEnd (Play.closing r)) := by
  rw [Play.atEnd_closing]
  exact (h.after (List.suffix_cons _ _)).before (List.suffix_cons _ _)

/-- Scripts and arrivals settle, however many levels are left. -/
theorem settles_within (n : Nat) : (∀ ss, Settles n (script ss)) ∧ Settles n arrival := by
  -- By induction on the levels that are left. Without any, a call that needs one goes beyond them
  -- and says so.
  induction n with
  | zero =>
    refine ⟨fun ss p => ?_, fun p => .inr ⟨.arrival, tellsLimit_tooDeep p⟩⟩
    cases ss with
    | nil => exact .inl ⟨_, 0, .empty, le_rfl⟩
    | cons s ss => exact .inr ⟨.script, tellsLimit_tooDeep p⟩
  | succ n ih =>
    obtain ⟨hscript, harrival⟩ := ih
    -- With one more, the steps of a script and the room of an arrival have `n` levels, and closing
    -- the level keeps what they told.
    refine ⟨fun ss p => ?_, fun p => ?_⟩
    · cases ss with
      | nil => exact .inl ⟨_, 0, .empty, Nat.zero_le _⟩
      | cons s ss =>
        have hact : (script (s :: ss)).act (n + 1) p = Act.level ((steps (s :: ss)).act n) p := rfl
        rcases settles_steps (settles_step hscript harrival) (s :: ss) (p.noting .opened) with
          ⟨r, m, hends, hm⟩ | ⟨hexceeds, htells⟩
        · exact .inl ⟨_, m + 1, .script hends, Nat.succ_le_succ hm⟩
        · refine .inr ⟨.inScript hexceeds, ?_⟩
          rw [hact, Act.level_eq]
          exact tellsLimit_closing htells
    · have hact : arrival.act (n + 1) p = Act.level ((room true).act n) p := rfl
      have hroom : Settles n (room true) := settles_room hscript true
      rcases hroom (p.noting .opened) with ⟨r, m, hends, hm⟩ | ⟨hexceeds, htells⟩
      · exact .inl ⟨_, m + 1, .arrival hends, Nat.succ_le_succ hm⟩
      · refine .inr ⟨.inArrival hexceeds, ?_⟩
        rw [hact, Act.level_eq]
        exact tellsLimit_closing htells

end Call

namespace Scene

/-- The limit on levels can be told only from what nests deeper. Without a limit a script either has
an end and nests no deeper than the limit, or it comes to a point at which more levels are open. In
the first case it ends with the limit as it does without: with the same result, in the same state of
play and with the same journal, in which nothing is left out. In the second case, whether or not the
script would ever end, a line tells that the levels were used up. -/
theorem limit_unseen (s : Script) (p : Play) :
    (∀ r n, Call.Unlimited (.script s) p r n → n ≤ maxLevels →
      run s p = r ∧ p.Unabridged (Play.atEnd (run s p))) ∧
    (Call.Exceeds (.script s) p maxLevels → p.TellsLimit (Play.atEnd (run s p))) ∧
    ((∃ r n, Call.Unlimited (.script s) p r n ∧ n ≤ maxLevels) ∨
      Call.Exceeds (.script s) p maxLevels) := by
  have hrun : ∀ {r n}, Call.Unlimited (.script s) p r n → n ≤ maxLevels → run s p = r :=
    fun hends hn => Call.act_of_unlimited hends hn
  have hsettles := (Call.settles_within maxLevels).1 s p
  refine ⟨fun r n hends hn => ⟨hrun hends hn, ?_⟩, fun hexceeds => ?_, ?_⟩
  · rw [hrun hends hn]
    exact hends.unabridged
  · rcases hsettles with ⟨r, n, hends, hn⟩ | ⟨-, htells⟩
    · exact absurd (hexceeds.lt_of_unlimited hends) (Nat.not_lt.mpr hn)
    · exact htells
  · exact hsettles.imp_right And.left

/-- A script that nests so many levels as long as a flag is not set. -/
def staircase : Nat → Script
  | 0 => []
  | n + 1 => [.branch "top" (.bool true) [] (staircase n)]

/-- A staircase has an end, and nests as many levels as it has stairs. -/
theorem unlimited_staircase (n : Nat) {p : Play} (h : p.player.flags.get? "top" = none) :
    ∃ q, Call.Unlimited (.script (staircase n)) p (.ok () q) n := by
  induction n generalizing p with
  | zero => exact ⟨p, .empty⟩
  | succ n ih =>
    let inside := (p.noting .opened).performing (.branch "top" (.bool true) [] (staircase n))
    obtain ⟨q, hq⟩ := ih (p := inside) h
    have hsteps : Call.Unlimited (.steps (staircase (n + 1))) (p.noting .opened) (.ok () q)
        (max n 0) := .next (.branch (.unset h) hq) .noSteps
    rw [Nat.max_eq_left (Nat.zero_le n)] at hsteps
    exact ⟨_, .script hsteps⟩

/-- A staircase with a stair more than there may be levels goes beyond them. -/
theorem exceeds_staircase (n : Nat) {p : Play} (h : p.player.flags.get? "top" = none) :
    Call.Exceeds (.script (staircase (n + 1))) p n := by
  induction n generalizing p with
  | zero => exact .script
  | succ n ih => exact .inScript (.first (.branch (.unset h) (ih h)))

/-- As many stairs as there are levels are gone down to the end, and of one stair more a line tells
that it was left out. -/
theorem limit_unseen_staircase :
    (∃ r, Call.Unlimited (.script (staircase maxLevels)) Call.inCircle r maxLevels ∧
      maxLevels ≤ maxLevels ∧ run (staircase maxLevels) Call.inCircle = r ∧
      Call.inCircle.Unabridged (Play.atEnd (run (staircase maxLevels) Call.inCircle))) ∧
    Call.Exceeds (.script (staircase (maxLevels + 1))) Call.inCircle maxLevels ∧
    Call.inCircle.TellsLimit (Play.atEnd (run (staircase (maxLevels + 1)) Call.inCircle)) := by
  have hunset : Call.inCircle.player.flags.get? "top" = none := rfl
  obtain ⟨q, hends⟩ := unlimited_staircase maxLevels hunset
  have hexceeds := exceeds_staircase maxLevels hunset
  exact ⟨⟨_, hends, le_rfl, (limit_unseen _ _).1 _ _ hends le_rfl⟩, hexceeds,
    (limit_unseen _ _).2.1 hexceeds⟩

end Scene

end TextAdventure
