import TextAdventure.Proofs.Act

/-!
# Promises of acts

A `Promise` is what an act may promise about the states before and after it, such that the promises
of acts that follow each other add up. A promise may rely on an invariant, which every act that
keeps the promise leaves behind.

`Promise.Levels.within` is the induction over the levels of scripts, done once: a promise that each
step and each arrival keeps, as long as the scripts inside keep it, is kept by every script at every
level. Along with the promise it carries what is known of the steps of the scripts that run
(`good`), what each of these steps leaves behind (`done`), and what holds between the states before
and after an arrival (`landed`).
-/

namespace TextAdventure

/-- What acts promise about the states before and after them. -/
structure Promise where
  /-- What an act may rely on. -/
  inv : Play → Prop
  /-- What holds between the states before and after an act that succeeds. -/
  ok : Play → Play → Prop
  /-- What holds between the states before and after an act that fails. -/
  failed : Failure → Play → Play → Prop
  /-- The next act may rely on it again. -/
  again : ∀ {p q}, inv p → ok p q → inv q
  /-- Doing nothing keeps the promise. -/
  refl : ∀ {p}, inv p → ok p p
  /-- Acts that keep the promise keep it one after the other. -/
  trans : ∀ {p q r}, ok p q → ok q r → ok p r
  /-- A failure may come after acts that succeed. -/
  failed_after : ∀ {e p q r}, ok p q → failed e q r → failed e p r

/-- Two promises at once. -/
def Promise.both (c c' : Promise) : Promise where
  inv p := c.inv p ∧ c'.inv p
  ok p q := c.ok p q ∧ c'.ok p q
  failed e p q := c.failed e p q ∧ c'.failed e p q
  again hp hq := ⟨c.again hp.1 hq.1, c'.again hp.2 hq.2⟩
  refl hp := ⟨c.refl hp.1, c'.refl hp.2⟩
  trans h h' := ⟨c.trans h.1 h'.1, c'.trans h.2 h'.2⟩
  failed_after h h' := ⟨c.failed_after h.1 h'.1, c'.failed_after h.2 h'.2⟩

namespace Act

variable {α β : Type} {c : Promise}

/-- An act keeps a promise, and something is known of its value. -/
def Yields (c : Promise) (post : α → Prop) (act : Act α) : Prop :=
  ∀ p, c.inv p → act.Ends p (fun a q => c.ok p q ∧ post a) fun e q => c.failed e p q

/-- An act keeps a promise. -/
def Keeps (c : Promise) (act : Act α) : Prop :=
  ∀ p, c.inv p → act.Ends p (fun _ q => c.ok p q) fun e q => c.failed e p q

/-- What is known of the value of an act may be forgotten. -/
theorem Yields.keeps {post : α → Prop} {act : Act α} (h : act.Yields c post) : act.Keeps c :=
  fun p hp => (h p hp).imp_ok fun _ _ hq => hq.1

/-- An act that keeps two promises keeps both at once. -/
theorem Yields.both {c' : Promise} {post post' : α → Prop} {act : Act α} (h : act.Yields c post)
    (h' : act.Yields c' post') : act.Yields (c.both c') post := by
  intro p hp
  refine ((h p hp.1).and (h' p hp.2)).imp ?_ fun _ _ he => he
  intro a q ⟨⟨hq, ha⟩, hq', _⟩
  exact ⟨⟨hq, hq'⟩, ha⟩

/-- What holds of all values is known of the value of an act. -/
theorem Keeps.yields {post : α → Prop} {act : Act α} (h : act.Keeps c) (hpost : ∀ a, post a) :
    act.Yields c post :=
  fun p hp => (h p hp).imp_ok fun a _ hq => ⟨hq, hpost a⟩

/-- Acts keep a promise one after the other, and the second may rely on what the first one
leaves. -/
theorem Ends.andThen {p : Play} {act : Act α} {next : α → Act β} {Q : α → Play → Prop}
    {R : β → Play → Prop}
    (h : act.Ends p (fun a q => c.ok p q ∧ Q a q) fun e q => c.failed e p q)
    (hnext : ∀ a q, c.ok p q → Q a q →
      (next a).Ends q (fun b r => c.ok q r ∧ R b r) fun e r => c.failed e q r) :
    (act >>= next).Ends p (fun b r => c.ok p r ∧ R b r) fun e r => c.failed e p r := by
  rw [ends_bind]
  unfold Ends at h
  unfold Ends
  cases hact : act p with
  | ok a q =>
    rw [hact] at h
    obtain ⟨hpq, hQ⟩ := h
    have hq := hnext a q hpq hQ
    exact hq.imp (fun b r hr => ⟨c.trans hpq hr.1, hr.2⟩) fun e r hr => c.failed_after hpq hr
  | error e q =>
    rw [hact] at h
    exact h

/-- An act that keeps a promise keeps it after whatever kept it before. -/
theorem Keeps.after {act : Act α} {p q : Play} (h : act.Keeps c) (hp : c.inv p) (hpq : c.ok p q) :
    act.Ends q (fun _ r => c.ok p r) fun e r => c.failed e p r :=
  (h q (c.again hp hpq)).imp (fun _ _ hqr => c.trans hpq hqr) fun _ _ he => c.failed_after hpq he

/-- An act that does nothing keeps every promise. -/
theorem yields_pure {post : α → Prop} {a : α} (h : post a) : (pure a : Act α).Yields c post :=
  fun _ hp => ⟨c.refl hp, h⟩

/-- Acts keep a promise one after the other, and the second may rely on what is known of the value
of the first. -/
theorem Yields.bind {post : α → Prop} {post' : β → Prop} {act : Act α} {next : α → Act β}
    (h : act.Yields c post) (hnext : ∀ a, post a → (next a).Yields c post') :
    (act >>= next).Yields c post' := by
  intro p hp
  refine Ends.andThen (Q := fun a _ => post a) (R := fun b _ => post' b) (h p hp) ?_
  intro a q hpq ha
  exact hnext a ha q (c.again hp hpq)

/-- An act that keeps a promise may come before one of whose value something is known. -/
theorem Keeps.bindYields {post : β → Prop} {act : Act α} {next : α → Act β} (h : act.Keeps c)
    (hnext : ∀ a, (next a).Yields c post) : (act >>= next).Yields c post := by
  have hfirst : act.Yields c fun _ => True := h.yields fun _ => trivial
  exact hfirst.bind fun a _ => hnext a

/-- An act that keeps a promise may rely on what is known of the value of the act before it. -/
theorem Yields.bindKeeps {post : α → Prop} {act : Act α} {next : α → Act β}
    (h : act.Yields c post) (hnext : ∀ a, post a → (next a).Keeps c) : (act >>= next).Keeps c := by
  have hall : (act >>= next).Yields c fun _ => True :=
    h.bind fun a ha => (hnext a ha).yields fun _ => trivial
  exact hall.keeps

/-- An act that does nothing keeps every promise. -/
theorem keeps_pure (a : α) : (pure a : Act α).Keeps c := fun _ hp => c.refl hp

/-- Looking at the player keeps every promise. -/
theorem keeps_player : player.Keeps c := fun _ hp => c.refl hp

/-- Acts keep a promise one after the other. -/
theorem Keeps.bind {act : Act α} {next : α → Act β} (h : act.Keeps c)
    (hnext : ∀ a, (next a).Keeps c) : (act >>= next).Keeps c :=
  have hall : (act >>= next).Yields c fun _ => True :=
    h.bindYields fun a => (hnext a).yields fun _ => trivial
  hall.keeps

end Act

namespace Promise

variable {c : Promise} {good : Step → Prop} {done : Step → Play → Prop}
  {landed : Play → Play → Prop}

/-- Running a script of good steps keeps a promise and leaves behind what each step has to
leave. -/
def Runs (c : Promise) (good : Step → Prop) (done : Step → Play → Prop)
    (run : Script → Act Unit) : Prop :=
  ∀ script, (∀ s ∈ script, good s) → ∀ p, c.inv p →
    (run script).Ends p (fun _ q => c.ok p q ∧ ∀ s ∈ script, done s q) fun e q => c.failed e p q

/-- Running a script of good steps keeps the promise. -/
theorem Runs.keeps {run : Script → Act Unit} (h : Runs c good done run) {script : Script}
    (hgood : ∀ s ∈ script, good s) : (run script).Keeps c := fun p hp =>
  (h script hgood p hp).imp_ok fun _ _ hq => hq.1

/-- An arrival keeps a promise, and the player has landed. -/
def Arrives (c : Promise) (landed : Play → Play → Prop) (arrival : Act Unit) : Prop :=
  ∀ p, c.inv p → arrival.Ends p (fun _ q => c.ok p q ∧ landed p q) fun e q => c.failed e p q

/-- An arrival keeps the promise. -/
theorem Arrives.keeps {arrival : Act Unit} (h : Arrives c landed arrival) : arrival.Keeps c :=
  fun p hp => (h p hp).imp_ok fun _ _ hq => hq.1

/-- What has to be shown of steps and arrivals for a promise to be kept at all levels. -/
structure Levels (c : Promise) (good : Step → Prop) (done : Step → Play → Prop)
    (landed : Play → Play → Prop) : Prop where
  /-- What a step leaves behind lasts. -/
  lasting : ∀ {s p q}, c.ok p q → done s p → done s q
  /-- Beginning a level keeps the promise. -/
  opened : ∀ p, c.inv p → c.ok p (p.noting .opened)
  /-- Ending a level keeps the promise. -/
  closed : ∀ p, c.inv p → c.ok p (p.noting .closed)
  /-- A level also ends when the act inside it fails. -/
  failed_closed : ∀ {e p q}, c.failed e p q → c.failed e p (q.noting .closed)
  /-- A player who has landed inside a level has landed. -/
  landed_level : ∀ {p q}, landed (p.noting .opened) q → landed p (q.noting .closed)
  /-- What is said when the levels are used up keeps the promise, and then nothing is asked of the
  steps and arrivals that were left out. -/
  leftOut : ∀ p line, c.inv p →
    c.ok p ((p.noting .leftOut).noting (.said line)) ∧
      (∀ s, done s ((p.noting .leftOut).noting (.said line))) ∧
      landed p ((p.noting .leftOut).noting (.said line))
  /-- A step keeps the promise if the scripts and the arrival inside it do. -/
  step : ∀ inner : Nested, Runs c good done inner.script → Arrives c landed inner.arrival →
    ∀ s, good s → ∀ p, c.inv p →
      (inner.step s).Ends p (fun _ q => c.ok p q ∧ done s q) fun e q => c.failed e p q
  /-- An arrival keeps the promise if the script of the room does. -/
  arrival : ∀ inner : Nested, Runs c good done inner.script →
    Arrives c landed do inner.script (← Scene.render true)

/-- A promise of which nothing more is known is kept at all levels if steps and rooms keep it. -/
theorem levels_of_keeps
    (hnote : ∀ (e : Event) p, (∀ record, e ≠ .stored record) → c.inv p → c.ok p (p.noting e))
    (hclosed : ∀ {e p q}, c.failed e p q → c.failed e p (q.noting .closed))
    (hstep : ∀ inner : Nested,
      (∀ script, (∀ s ∈ script, good s) → (inner.script script).Keeps c) →
        inner.arrival.Keeps c → ∀ s, good s → (inner.step s).Keeps c)
    (hrender : (Scene.render true).Yields c fun script => ∀ s ∈ script, good s) :
    c.Levels good (fun _ _ => True) fun _ _ => True where
  lasting _ _ := trivial
  opened p := hnote _ p (by simp)
  closed p := hnote _ p (by simp)
  failed_closed := hclosed
  landed_level _ := trivial
  leftOut p line hp := by
    have hleftOut := hnote .leftOut p (by simp) hp
    have hsaid := hnote (.said line) _ (by simp) (c.again hp hleftOut)
    exact ⟨c.trans hleftOut hsaid, fun _ => trivial, trivial⟩
  step inner hscript harrival s hs p hp := by
    have hkeeps := hstep inner (fun _ hgood => hscript.keeps hgood) harrival.keeps s hs
    exact (hkeeps p hp).imp_ok fun _ _ hq => ⟨hq, trivial⟩
  arrival inner hscript p hp := by
    have hkeeps : Act.Keeps c (do inner.script (← Scene.render true)) :=
      hrender.bindKeeps fun _ hgood => hscript.keeps hgood
    exact (hkeeps p hp).imp_ok fun _ _ hq => ⟨hq, trivial⟩

/-- An act inside a level keeps the promise if the act does. -/
theorem Levels.level (h : Levels c good done landed) {act : Act Unit} {p : Play}
    {Q R : Play → Prop} (hp : c.inv p) (hQ : ∀ {q}, c.inv q → Q q → R (q.noting .closed))
    (hact : act.Ends (p.noting .opened) (fun _ q => c.ok (p.noting .opened) q ∧ Q q)
      fun e q => c.failed e (p.noting .opened) q) :
    (Act.level act).Ends p (fun _ q => c.ok p q ∧ R q) fun e q => c.failed e p q := by
  have hopened := h.opened p hp
  rw [Act.ends_level]
  refine hact.imp ?_ ?_
  · intro _ q ⟨hq, hQq⟩
    have hpq := c.trans hopened hq
    have hinv := c.again hp hpq
    exact ⟨c.trans hpq (h.closed q hinv), hQ hinv hQq⟩
  · intro e q hq
    exact h.failed_closed (c.failed_after hopened hq)

/-- The steps of a script keep the promise if each of them does. -/
theorem Levels.steps (h : Levels c good done landed) (inner : Nested)
    (hscript : Runs c good done inner.script) (harrival : Arrives c landed inner.arrival) :
    Runs c good done inner.steps := by
  intro script
  induction script with
  | nil =>
    intro _ p hp
    rw [Nested.steps, Act.ends_pure]
    exact ⟨c.refl hp, by simp⟩
  | cons s ss ih =>
    intro hgood p hp
    rw [Nested.steps]
    have hfirst := h.step inner hscript harrival s (hgood s List.mem_cons_self) p hp
    refine hfirst.andThen (R := fun _ r => ∀ t ∈ s :: ss, done t r) ?_
    intro _ q hpq hs
    have hrest := ih (fun t ht => hgood t (List.mem_cons_of_mem _ ht)) q (c.again hp hpq)
    refine hrest.imp_ok ?_
    intro _ r ⟨hqr, hss⟩
    refine ⟨hqr, fun t ht => ?_⟩
    -- What the first step leaves behind outlasts the others.
    rcases List.mem_cons.mp ht with rfl | ht
    · exact h.lasting hqr hs
    · exact hss t ht

/-- Saying that the levels are used up keeps the promise. -/
theorem Levels.tooDeep (h : Levels c good done landed) {p : Play} (hp : c.inv p) :
    Scene.tooDeep.Ends p (fun _ q => c.ok p q ∧ (∀ s, done s q) ∧ landed p q)
      fun e q => c.failed e p q := by
  unfold Scene.tooDeep
  rw [Act.ends_bind, Act.ends_note, Act.ends_say]
  exact h.leftOut p _ hp

/-- Scripts and arrivals keep the promise at every level. -/
theorem Levels.within (h : Levels c good done landed) (levels : Nat) :
    Runs c good done (Nested.within levels).script ∧
      Arrives c landed (Nested.within levels).arrival := by
  -- Scripts and arrivals go together, since each level of one uses both of the level inside it.
  induction levels with
  | zero =>
    refine ⟨fun script _ p hp => ?_, fun p hp => ?_⟩
    · cases script with
      | nil => exact ⟨c.refl hp, by simp⟩
      | cons s ss =>
        exact (h.tooDeep hp).imp_ok fun _ _ hq => ⟨hq.1, fun t _ => hq.2.1 t⟩
    · exact (h.tooDeep hp).imp_ok fun _ _ hq => ⟨hq.1, hq.2.2⟩
  | succ levels ih =>
    obtain ⟨hscript, harrival⟩ := ih
    refine ⟨fun script hgood p hp => ?_, fun p hp => ?_⟩
    · cases script with
      | nil => exact ⟨c.refl hp, by simp⟩
      | cons s ss =>
        have hsteps := h.steps _ hscript harrival (s :: ss) hgood _ (c.again hp (h.opened p hp))
        exact h.level hp (fun hq hQ t ht => h.lasting (h.closed _ hq) (hQ t ht)) hsteps
    · have hinner := h.arrival _ hscript _ (c.again hp (h.opened p hp))
      exact h.level hp (fun _ hq => h.landed_level hq) hinner

end Promise

end TextAdventure
