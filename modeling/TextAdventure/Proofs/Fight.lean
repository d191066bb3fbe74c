import Mathlib.Data.List.Induction
import TextAdventure.Proofs.Exchange
import TextAdventure.Proofs.Player.Record

/-!
# How fights end

How a fight ends can be told from its numbers (`Fight.decided_by_numbers`). An attack is an exchange
of blows on the player alone (`Fight.results_answer`), so several lines of which some are attacks
bring the fight to where the numbers say (`Action.exists_performAll`). Whatever else is typed in
between is refused and changes nothing.
-/

namespace TextAdventure

namespace Fight

variable {p : Play}

/-- Writing the player leaves it as it is, and fails only if the store does. -/
theorem ends_persist : Act.persist.Ends p
    (fun _ q => q.player = p.player ∧ (p.saves.puts = none → q.saves.puts = none))
    fun _ q => q.player = p.player ∧ p.saves.puts ≠ none := by
  rw [Act.ends_persist]
  constructor
  · intro hfull
    refine ⟨rfl, fun hstore => ?_⟩
    rw [hstore, Saves.spend] at hfull
    cases hfull
  · intro left hleft
    refine ⟨rfl, fun hstore => ?_⟩
    rw [hstore, Saves.spend] at hleft
    exact (Option.some.inj hleft).symm

/-- A part of a fight has a result: how it ends, and the player afterwards. The player is the same
if the part fails, which it does only if the store fails. -/
def Results (act : Act Outcome) (p : Play) (result : Outcome × Player) : Prop :=
  act.Ends p
    (fun outcome q => (outcome, q.player) = result ∧ (p.saves.puts = none → q.saves.puts = none))
    fun _ q => q.player = result.2 ∧ p.saves.puts ≠ none

/-- A part of a fight ends with saving the player. -/
theorem results_persist (outcome : Outcome) :
    Results (do Act.persist; return outcome) p (outcome, p.player) := by
  unfold Results
  rw [Act.ends_bind]
  exact ends_persist.imp_ok fun _ q hq => ⟨congrArg (outcome, ·) hq.1, hq.2⟩

/-- Getting what the enemy has dropped changes what is carried, and does not touch the store. -/
theorem ends_forM_loot (drops : List String) :
    (drops.forM loot).Ends p (fun _ q => q.player = drops.foldl Player.addItem p.player ∧
      q.saves = p.saves) fun _ _ => False := by
  induction drops generalizing p with
  | nil => exact ⟨rfl, rfl⟩
  | cons drop drops ih =>
    change (loot drop >>= fun _ => drops.forM loot).Ends p _ _
    unfold loot
    rw [Act.ends_bind, Act.ends_bind, Act.ends_player, Act.ends_bind, Act.ends_changePlayer]
    cases p.player.hasItem drop with
    | true => exact ih
    | false => exact ih

/-- The player who has won carries what the enemy dropped. -/
theorem results_win (enemy : Enemy) : Results (win enemy) p
    (.victory, { p.player with
      inventory := p.player.inventory ++
        (enemy.drops.removeAll p.player.inventory).eraseDups }.endCombat) := by
  unfold Results win
  rw [Act.ends_bind, Act.ends_say, Act.ends_bind]
  refine (ends_forM_loot enemy.drops).imp ?_ fun _ _ => False.elim
  intro _ q ⟨hplayer, hsaves⟩
  have hputs : (q.changing Player.endCombat).saves.puts = p.saves.puts := congrArg Saves.puts hsaves
  have hwon : (q.changing Player.endCombat).player = { p.player with
      inventory := p.player.inventory ++
        (enemy.drops.removeAll p.player.inventory).eraseDups }.endCombat := by
    rw [Player.foldl_addItem] at hplayer
    exact congrArg Player.endCombat hplayer
  rw [Act.ends_bind, Act.ends_changePlayer, ← hputs, ← hwon]
  exact results_persist .victory

/-- The blow of the enemy ends the fight if it beats the player. -/
theorem results_counter (enemy : Enemy) :
    Results (counter enemy) p (p.player.suffer enemy) := by
  unfold Results counter
  rw [Act.ends_bind, Act.ends_player]
  dsimp only
  rw [Act.ends_bind, Act.ends_changePlayer, Act.ends_bind, Act.ends_say]
  by_cases hfallen :
      (p.player.stats.takeDamage (enemy.stats.enemyDamage p.player.stats)).isBeaten = true
  · rw [if_pos hfallen, Act.ends_bind, Act.ends_say, Act.ends_bind, Act.ends_changePlayer,
      Player.suffer_of_fallen hfallen]
    exact results_persist .defeat
  · rw [if_neg hfallen, Player.suffer_of_standing hfallen]
    exact results_persist .goesOn

/-- An exchange of blows changes the player as the numbers say. -/
theorem results_exchange (enemy : Enemy) :
    Results (exchange enemy) p (p.player.exchange enemy) := by
  unfold Results exchange
  rw [Act.ends_bind, Act.ends_player]
  dsimp only
  rw [Act.ends_bind, Act.ends_changePlayer, Act.ends_bind, Act.ends_say]
  by_cases hbeaten :
      (enemy.stats.takeDamage (p.player.stats.playerDamage enemy.stats)).isBeaten = true
  · rw [if_pos hbeaten, Player.exchange_of_beaten hbeaten]
    exact results_win _
  · rw [if_neg hbeaten, Player.exchange_of_not_beaten hbeaten]
    exact results_counter _

/-- A command that is no attack is refused and changes nothing. -/
theorem answer_of_ne {messages : Messages} {command : Command} (hverb : command.verb ≠ .attack) :
    answer messages command p = .ok .refused (p.noting (.said messages.combatInProgress)) := by
  unfold answer
  rw [if_pos hverb]
  rfl

/-- Where no enemy is an attack is refused and changes nothing. -/
theorem answer_of_none {messages : Messages} {command : Command} (hverb : command.verb = .attack)
    (henemy : p.player.enemy = none) : answer messages command p =
      .ok .refused (p.noting (.said messages.combatRefusal)) := by
  unfold answer
  rw [if_neg (not_not.mpr hverb), Act.bind_of_ok (rfl : Act.player p = .ok p.player p), henemy]
  rfl

/-- An attack is one exchange of blows with the enemy that is there. -/
theorem results_answer (messages : Messages) {command : Command} {enemy : Enemy}
    (hverb : command.verb = .attack) (henemy : p.player.enemy = some enemy) :
    Results (answer messages command) p (p.player.exchange enemy) := by
  unfold Results answer
  rw [if_neg (not_not.mpr hverb)]
  rw [Act.ends_bind, Act.ends_player, henemy]
  exact results_exchange enemy

end Fight

namespace Action

/-- Carries out several lines of a player, one after the other. -/
def performAll (world : World) (lines : List String) : Act Unit :=
  lines.forM fun line => perform world (Command.parse line)

/-- How many of the lines are attacks. -/
def attacks (lines : List String) : Nat :=
  lines.countP fun line => (Command.parse line).verb = .attack

variable {world : World} {p q : Play}

/-- In a fight a command is an answer in the fight. -/
theorem perform_eq_answer {command : Command} {outcome : Outcome}
    (hcombat : p.player.inCombat = true)
    (hanswer : Fight.answer world.messages command p = .ok outcome q) :
    perform world command p = .ok () q := by
  have hends : (perform world command).Ends p (fun _ r => r = q) fun _ _ => False := by
    unfold perform
    rw [Act.ends_bind, Act.ends_player, if_pos hcombat, Act.ends_discard]
    unfold Act.Ends
    rw [hanswer]
  obtain ⟨_, r, hperform, rfl⟩ := hends.exists_ok
  exact hperform

/-- The last of several lines is carried out where the others end. -/
theorem performAll_concat {lines : List String} {line : String}
    (hlines : performAll world lines p = .ok () q) :
    performAll world (lines ++ [line]) p = perform world (Command.parse line) q := by
  have happend : performAll world (lines ++ [line]) =
      performAll world lines >>= fun _ => perform world (Command.parse line) := by
    have hlast : performAll world [line] = perform world (Command.parse line) :=
      bind_pure (perform world (Command.parse line))
    calc performAll world (lines ++ [line])
        = performAll world lines >>= fun _ => performAll world [line] := List.forM_append
      _ = performAll world lines >>= fun _ => perform world (Command.parse line) := by rw [hlast]
  refine Act.eq_of_ends ?_
  rw [happend, Act.ends_bind]
  unfold Act.Ends at *
  rw [hlines]
  exact Act.ends_self _ _

/-- The last of several lines counts if it is an attack. -/
theorem attacks_concat (lines : List String) (line : String) :
    attacks (lines ++ [line]) =
      attacks lines + if (Command.parse line).verb = .attack then 1 else 0 := by
  unfold attacks
  rw [List.countP_append, List.countP_singleton]
  simp

variable {enemy : Enemy} {k : Nat}

/-- An attack in a fight that went on so far is an exchange of blows on the player alone. -/
theorem exists_answer_of_stands (world : World) {q : Play} {player : Player} {command : Command}
    (hverb : command.verb = .attack) (hstands : player.Stands enemy k q.player)
    (hstore : q.saves.puts = none) : ∃ e r, q.player.enemy = some e ∧
      Fight.answer world.messages command q = .ok (q.player.exchange e).1 r ∧
        perform world command q = .ok () r ∧ r.player = (q.player.exchange e).2 ∧
          r.saves.puts = none := by
  obtain ⟨hp, enemyHp, -, -, hq⟩ := hstands
  have hcombat : q.player.inCombat = true := by rw [hq]
  obtain ⟨e, henemy⟩ : ∃ e, q.player.enemy = some e := by
    rw [hq]
    exact ⟨_, rfl⟩
  -- A store that does not fail makes the answer go well.
  have hends : (Fight.answer world.messages command).Ends q (fun outcome r =>
      (outcome, r.player) = q.player.exchange e ∧ r.saves.puts = none) fun _ _ => False :=
    (Fight.results_answer world.messages hverb henemy).imp
      (fun _ _ hr => ⟨hr.1, hr.2 hstore⟩) fun _ _ hfailed => hfailed.2 hstore
  obtain ⟨outcome, r, hanswer, hexchange, hputs⟩ := hends.exists_ok
  refine ⟨e, r, henemy, ?_⟩
  rw [← hexchange]
  exact ⟨hanswer, perform_eq_answer hcombat hanswer, rfl, hputs⟩

/-- Lines with no more attacks than the fight lasts are all carried out, and the numbers stand where
the attacks have brought them. -/
theorem exists_performAll (world : World) (hcombat : p.player.inCombat = true)
    (henemy : p.player.enemy = some enemy) (hstore : p.saves.puts = none)
    (hfits : p.player.stats.NoOverflow enemy.stats) (lines : List String)
    (hlasts : p.player.Lasts enemy (attacks lines)) :
    ∃ q, performAll world lines p = .ok () q ∧ p.player.Stands enemy (attacks lines) q.player ∧
      q.saves.puts = none := by
  -- The induction is on the lines from the last: the numbers count from the beginning of the fight.
  induction lines using List.reverseRecOn with
  | nil => exact ⟨p, rfl, Player.stands_zero hcombat henemy, hstore⟩
  | append_singleton lines line ih =>
    rw [attacks_concat] at hlasts ⊢
    have hbefore : p.player.Lasts enemy (attacks lines) := fun j hj hjk =>
      hlasts j hj (hjk.trans (Nat.le_add_right _ _))
    obtain ⟨q, hlines, hstands, hputs⟩ := ih hbefore
    rw [performAll_concat hlines]
    -- An attack is one more exchange of blows; any other line leaves the fight as it stands.
    by_cases hverb : (Command.parse line).verb = .attack
    · rw [if_pos hverb] at hlasts ⊢
      obtain ⟨e, r, he, -, hperform, hplayer, hputs'⟩ :=
        exists_answer_of_stands world hverb hstands hputs
      obtain ⟨e', he', -, -, hgoesOn⟩ := Player.exchange_of_stands hfits hbefore hstands
      rw [he] at he'
      cases he'
      refine ⟨r, hperform, ?_, hputs'⟩
      rw [hplayer]
      exact (hgoesOn hlasts).2
    · have hfight : q.player.inCombat = true := by
        obtain ⟨_, _, -, -, hq⟩ := hstands
        rw [hq]
      rw [if_neg hverb]
      exact ⟨_, perform_eq_answer hfight (Fight.answer_of_ne hverb), hstands, hputs⟩

end Action

namespace Fight

open TextAdventure.Action (attacks performAll perform)

/-- A fight that is decided by the attack with a number: how it ends, what is left of the player
then and what the player carries then. -/
structure Decided (world : World) (p : Play) (enemy : Enemy) (k : Nat) (outcome : Outcome)
    (left : Int) (inventory : List String) : Prop where
  /-- Before, the numbers stand where the attacks have brought them, and all else is as it was. -/
  goesOn : ∀ lines, attacks lines < k →
    ∃ q, performAll world lines p = .ok () q ∧ p.player.Stands enemy (attacks lines) q.player
  /-- Before, a line that is no attack is refused with a line of the world, and nothing changes. -/
  refused : ∀ lines line q, attacks lines < k → performAll world lines p = .ok () q →
    (Command.parse line).verb ≠ .attack → perform world (Command.parse line) q =
      .ok () (q.noting (.said world.messages.combatInProgress))
  /-- The attack with that number ends the fight. -/
  ends : ∀ lines line q, attacks lines + 1 = k → performAll world lines p = .ok () q →
    (Command.parse line).verb = .attack →
      ∃ r, answer world.messages (Command.parse line) q = .ok outcome r ∧
        perform world (Command.parse line) q = .ok () r ∧ p.player.Leaves left inventory r.player

variable {world : World} {p : Play} {enemy : Enemy} {k : Nat}

/-- A fight that lasts so long is decided by the next attack. -/
theorem decided_of_lasts {outcome : Outcome} {left : Int} {inventory : List String}
    (hcombat : p.player.inCombat = true) (henemy : p.player.enemy = some enemy)
    (hstore : p.saves.puts = none) (hfits : p.player.stats.NoOverflow enemy.stats)
    (hlasts : p.player.Lasts enemy k)
    (hlast : ∀ q e, p.player.Stands enemy k q → q.enemy = some e →
      (q.exchange e).1 = outcome ∧ p.player.Leaves left inventory (q.exchange e).2) :
    Decided world p enemy (k + 1) outcome left inventory := by
  -- The lines before the last attack are carried out, and leave the numbers where they count from.
  have hperformed : ∀ lines, attacks lines < k + 1 → ∃ q, performAll world lines p = .ok () q ∧
      p.player.Stands enemy (attacks lines) q.player ∧ q.saves.puts = none := fun lines hlines =>
    Action.exists_performAll world hcombat henemy hstore hfits lines fun j hj hjk =>
      hlasts j hj (hjk.trans (Nat.lt_succ_iff.mp hlines))
  refine ⟨fun lines hlines => ?_, fun lines line q hlines hq hverb => ?_,
    fun lines line q hlines hq hverb => ?_⟩
  -- Lines without the last attack, another line after them, and the last attack itself.
  · obtain ⟨q, hq, hstands, -⟩ := hperformed lines hlines
    exact ⟨q, hq, hstands⟩
  · obtain ⟨q', hq', ⟨_, _, -, -, hplayer⟩, -⟩ := hperformed lines hlines
    rw [hq] at hq'
    cases hq'
    have hfight : q.player.inCombat = true := by rw [hplayer]
    exact Action.perform_eq_answer hfight (answer_of_ne hverb)
  · obtain ⟨q', hq', hstands, hputs⟩ := hperformed lines (by omega)
    rw [hq] at hq'
    cases hq'
    obtain rfl : attacks lines = k := by omega
    obtain ⟨e, r, he, hanswer, hperform, hplayer, -⟩ :=
      Action.exists_answer_of_stands world hverb hstands hputs
    obtain ⟨houtcome, hleaves⟩ := hlast q.player e hstands he
    rw [houtcome] at hanswer
    rw [← hplayer] at hleaves
    exact ⟨r, hanswer, hperform, hleaves⟩

/-- A fight has the outcome that its numbers say, whatever is typed in between. If there are
exchanges of blows after which the enemy stands and nothing is left of the player, the first of them
is the defeat of the player, who keeps what it carries. Otherwise the last blow that is needed is
the victory of the player, who was struck once less, and gets what the enemy dropped, in order and
once, as far as it did not carry it already. -/
theorem decided_by_numbers (world : World) (hcombat : p.player.inCombat = true)
    (henemy : p.player.enemy = some enemy) (hstore : p.saves.puts = none)
    (hfits : p.player.stats.NoOverflow enemy.stats) :
    (∀ k, IsLeast (p.player.stats.defeats enemy.stats) k → Decided world p enemy k .defeat
      (p.player.stats.hp.toInt - k * p.player.stats.taken enemy.stats) p.player.inventory) ∧
    (p.player.stats.defeats enemy.stats = ∅ →
      Decided world p enemy (p.player.stats.blows enemy.stats) .victory
        (p.player.stats.hp.toInt -
          ((p.player.stats.blows enemy.stats : Int) - 1) * p.player.stats.taken enemy.stats)
        (p.player.inventory ++ (enemy.drops.removeAll p.player.inventory).eraseDups)) := by
  constructor
  -- A defeat is not the first exchange of no exchanges, so there is one before it.
  · rintro k ⟨⟨hk, hstands, hfallen⟩, hleast⟩
    obtain ⟨j, rfl⟩ : ∃ j, k = j + 1 := ⟨k - 1, by omega⟩
    have hlasts : p.player.Lasts enemy j := by
      intro i hi hij
      have hbefore : i < p.player.stats.blows enemy.stats := by omega
      refine ⟨(Stats.lt_blows_iff hi).mp hbefore, not_le.mp fun hgone => ?_⟩
      -- An earlier defeat would come before the first.
      have hfirst : j + 1 ≤ i := hleast ⟨hi, hbefore, hgone⟩
      omega
    refine decided_of_lasts hcombat henemy hstore hfits hlasts fun q e hq he => ?_
    obtain ⟨e', he', -, hdefeat, -⟩ := Player.exchange_of_stands hfits hlasts hq
    rw [he] at he'
    cases he'
    exact hdefeat ((Stats.lt_blows_iff hk).mp hstands) hfallen
  · intro hnone
    have hone : 1 ≤ p.player.stats.blows enemy.stats := le_max_left _ _
    obtain ⟨n, hn⟩ : ∃ n, p.player.stats.blows enemy.stats = n + 1 :=
      ⟨p.player.stats.blows enemy.stats - 1, by omega⟩
    -- Nobody falls before the last blow that is needed, since nobody ever does.
    have hlasts : p.player.Lasts enemy n := by
      intro i hi hij
      have hbefore : i < p.player.stats.blows enemy.stats := by omega
      refine ⟨(Stats.lt_blows_iff hi).mp hbefore, not_le.mp fun hgone => ?_⟩
      have hdefeat : i ∈ p.player.stats.defeats enemy.stats := ⟨hi, hbefore, hgone⟩
      rw [hnone] at hdefeat
      exact hdefeat
    have hbeaten : enemy.stats.hp.toInt - (n + 1 : Nat) * p.player.stats.dealt enemy.stats ≤ 0 := by
      rw [← hn]
      exact not_lt.mp (mt (Stats.lt_blows_iff hone).mpr (lt_irrefl _))
    have hcount : ((n + 1 : Nat) : Int) - 1 = n := by omega
    rw [hn, hcount]
    refine decided_of_lasts hcombat henemy hstore hfits hlasts fun q e hq he => ?_
    obtain ⟨e', he', hvictory, -, -⟩ := Player.exchange_of_stands hfits hlasts hq
    rw [he] at he'
    cases he'
    exact hvictory hbeaten

/-- A guard who drops a lamp and twice a tail. -/
def guard : Enemy := ⟨"guard", "Guard", "He yawns.", ⟨5, 4, 1⟩, none, ["lamp", "tail", "tail"]⟩

/-- An ogre. -/
def ogre : Enemy := ⟨"ogre", "Ogre", "He roars.", ⟨9, 5, 0⟩, none, ["club"]⟩

/-- A state of play in which a player who carries a lamp and a key fights with an enemy. -/
def duel (enemy : Enemy) : Play :=
  .ofPlayer { Player.fighting with stats := ⟨7, 3, 1⟩, enemy := some enemy }

/-- The third attack beats the guard, and of what he drops the player gets the tail, once. The
second attack is the last one against the ogre, whose second blow beats the player. -/
theorem decided_by_numbers_duel :
    Decided ⟨"", "", "hall", .empty, .standard⟩ (duel guard) guard 3 .victory 1
        ["lamp", "key", "tail"] ∧
      Decided ⟨"", "", "hall", .empty, .standard⟩ (duel ogre) ogre 2 .defeat (-1)
        ["lamp", "key"] := by
  have hguard : (duel guard).player.stats.NoOverflow guard.stats :=
    ⟨by decide, by decide, fun _ => by decide, fun _ => by decide⟩
  have hogre : (duel ogre).player.stats.NoOverflow ogre.stats :=
    ⟨by decide, by decide, fun _ => by decide, fun _ => by decide⟩
  have hlt : ∀ {enemy : Enemy} {k : Nat}, 1 ≤ k →
      (k < (duel enemy).player.stats.blows enemy.stats ↔
        0 < enemy.stats.hp.toInt - k * (duel enemy).player.stats.dealt enemy.stats) :=
    fun hk => Stats.lt_blows_iff hk
  -- Three blows are needed against the guard, and he never defeats the player.
  constructor
  · have hblows : (duel guard).player.stats.blows guard.stats = 3 := by
      have hmore : 2 < (duel guard).player.stats.blows guard.stats :=
        (hlt (by decide)).mpr (by decide)
      have hless : ¬3 < (duel guard).player.stats.blows guard.stats :=
        mt (hlt (by decide)).mp (by decide)
      omega
    have hnone : (duel guard).player.stats.defeats guard.stats = ∅ := by
      refine Set.eq_empty_of_forall_notMem ?_
      rintro k ⟨hk, hstands, hfallen⟩
      rw [hblows] at hstands
      have htaken : (duel guard).player.stats.taken guard.stats = 3 := by decide
      have hhp : (duel guard).player.stats.hp.toInt = 7 := by decide
      rw [htaken, hhp] at hfallen
      omega
    have h := (decided_by_numbers ⟨"", "", "hall", .empty, .standard⟩ rfl rfl rfl hguard).2 hnone
    rw [hblows] at h
    exact h
  -- The ogre would need three as well, but the second exchange is too much for the player.
  · have hleast : IsLeast ((duel ogre).player.stats.defeats ogre.stats) 2 := by
      refine ⟨⟨by decide, (hlt (by decide)).mpr (by decide), by decide⟩, ?_⟩
      rintro k ⟨hk, -, hgone⟩
      have htaken : (duel ogre).player.stats.taken ogre.stats = 4 := by decide
      have hhp : (duel ogre).player.stats.hp.toInt = 7 := by decide
      rw [htaken, hhp] at hgone
      omega
    exact (decided_by_numbers ⟨"", "", "hall", .empty, .standard⟩ rfl rfl rfl hogre).1 2 hleast

end Fight

end TextAdventure
