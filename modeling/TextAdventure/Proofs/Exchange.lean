import Mathlib.Data.Rat.Floor
import Mathlib.Order.Bounds.Basic
import TextAdventure.Play.Fight

/-!
# Exchanges of blows

The numbers of a fight: the player deals `Stats.dealt` with each blow and takes `Stats.taken` with
each blow of the enemy, the enemy needs `Stats.blows` blows to be beaten, and it strikes back after
every blow but the last. `Player.exchange` is one exchange of blows on the player alone, and
`Player.Stands` is the invariant: where the numbers stand after so many exchanges, and that all else
is as it was.
-/

namespace TextAdventure

namespace Stats

/-- A number that 32 bits hold. -/
def InRange (n : Int) : Prop := Int32.minValue.toInt ≤ n ∧ n ≤ Int32.maxValue.toInt

instance (n : Int) : Decidable (InRange n) := inferInstanceAs (Decidable (_ ∧ _))

/-- A difference that 32 bits hold is computed as it is. -/
theorem toInt_sub_of_inRange {x y : Int32} (h : InRange (x.toInt - y.toInt)) :
    (x - y).toInt = x.toInt - y.toInt := by
  have hmin : Int32.minValue.toInt = -2147483648 := rfl
  have hmax : Int32.maxValue.toInt = 2147483647 := rfl
  obtain ⟨hlow, hhigh⟩ := h
  rw [Int32.toInt_sub]
  exact Int.bmod_eq_of_le (by omega) (by omega)

/-- The greater of two 32-bit numbers is the greater number. -/
theorem toInt_max (x y : Int32) : (max x y).toInt = max x.toInt y.toInt := by
  have hmax : max x y = if x ≤ y then y else x := rfl
  rw [hmax, max_def]
  simp only [Int32.le_iff_toInt_le]
  split <;> rfl

variable (player enemy : Stats)

/-- What a blow of the player takes from the enemy. -/
def dealt : Int := max 1 (player.attack.toInt - enemy.defense.toInt)

/-- What a blow of the enemy takes from the player. -/
def taken : Int := max 0 (enemy.attack.toInt - player.defense.toInt)

/-- How many blows of the player beat the enemy. One blow is needed even if nothing is left of the
enemy. -/
def blows : Nat := max 1 ⌈(enemy.hp.toInt : ℚ) / player.dealt enemy⌉₊

/-- The exchanges of blows after which the enemy stands and nothing is left of the player. -/
def defeats : Set Nat :=
  {k | 1 ≤ k ∧ k < player.blows enemy ∧ player.hp.toInt - k * player.taken enemy ≤ 0}

/-- The first exchange of blows computes no number that 32 bits do not hold. The enemy strikes back
only if something is left of it. -/
structure NoOverflow : Prop where
  /-- What the player deals. -/
  dealt : InRange (player.attack.toInt - enemy.defense.toInt)
  /-- What is left of the enemy. -/
  enemyHp : InRange (enemy.hp.toInt - player.dealt enemy)
  /-- What the enemy deals. -/
  taken : 0 < enemy.hp.toInt - player.dealt enemy →
    InRange (enemy.attack.toInt - player.defense.toInt)
  /-- What is left of the player. -/
  playerHp : 0 < enemy.hp.toInt - player.dealt enemy →
    InRange (player.hp.toInt - player.taken enemy)

variable {player enemy}

/-- The enemy stands as long as fewer blows than needed were dealt. -/
theorem lt_blows_iff {k : Nat} (hk : 1 ≤ k) :
    k < player.blows enemy ↔ 0 < enemy.hp.toInt - k * player.dealt enemy := by
  have hdealt : (0 : ℚ) < (player.dealt enemy : ℚ) := by
    have hpos : 0 < player.dealt enemy := lt_of_lt_of_le Int.one_pos (le_max_left _ _)
    exact_mod_cast hpos
  calc k < player.blows enemy
      ↔ k < ⌈(enemy.hp.toInt : ℚ) / player.dealt enemy⌉₊ := by
        unfold blows
        rw [lt_max_iff]
        omega
    _ ↔ (k : ℚ) * player.dealt enemy < enemy.hp.toInt := by
        rw [Nat.lt_ceil, lt_div_iff₀ hdealt]
    _ ↔ (k : Int) * player.dealt enemy < enemy.hp.toInt := by norm_cast
    _ ↔ 0 < enemy.hp.toInt - k * player.dealt enemy := by omega

/-- A blow of the player deals what it deals. -/
theorem toInt_playerDamage (h : InRange (player.attack.toInt - enemy.defense.toInt)) :
    (player.playerDamage enemy).toInt = player.dealt enemy := by
  unfold playerDamage Stats.dealt
  rw [toInt_max, toInt_sub_of_inRange h, max_comm]
  rfl

/-- A blow of the enemy deals what it deals. -/
theorem toInt_enemyDamage (h : InRange (enemy.attack.toInt - player.defense.toInt)) :
    (enemy.enemyDamage player).toInt = player.taken enemy := by
  unfold enemyDamage Stats.taken
  rw [toInt_max, toInt_sub_of_inRange h, max_comm]
  rfl

/-- What is left of a fighter after one more blow that takes `per`. After the first blow, something
was left of the fighter before the next. -/
theorem toInt_blow {left damage : Int32} {start per : Int} {k : Nat} (hdamage : damage.toInt = per)
    (hper : 0 ≤ per) (hleft : left.toInt = start - k * per) (hfirst : InRange (start - per))
    (hstood : 1 ≤ k → 0 < start - k * per) :
    (left - damage).toInt = start - (k + 1 : Nat) * per := by
  have hstep : ((k + 1 : Nat) : Int) * per = k * per + per := by
    rw [Int.natCast_add, Int.add_mul, Int.natCast_one, Int.one_mul]
  have hrange : InRange (left.toInt - damage.toInt) := by
    rw [hdamage]
    rcases Nat.eq_zero_or_pos k with rfl | hk
    · rw [hleft, Int.natCast_zero, Int.zero_mul, Int.sub_zero]
      exact hfirst
    · have hmin : Int32.minValue.toInt = -2147483648 := rfl
      have hmax : Int32.maxValue.toInt = 2147483647 := rfl
      have hpos := hstood hk
      have hdamageLe := damage.toInt_le
      have hleftLe := left.toInt_le
      constructor <;> omega
  rw [toInt_sub_of_inRange hrange, hdamage, hleft, hstep]
  omega

/-- A fighter is beaten if nothing is left of it. -/
theorem isBeaten_iff (s : Stats) : s.isBeaten = true ↔ s.hp.toInt ≤ 0 := by
  unfold isBeaten
  rw [decide_eq_true_iff, Int32.le_iff_toInt_le]
  rfl

end Stats

namespace Player

/-- The player after getting several items. -/
theorem foldl_addItem (p : Player) (ids : List String) :
    ids.foldl addItem p =
      { p with inventory := p.inventory ++ (ids.removeAll p.inventory).eraseDups } := by
  induction ids generalizing p with
  | nil =>
    rw [List.foldl_nil, List.nil_removeAll, List.eraseDups_nil, List.append_nil]
  | cons id ids ih =>
    rw [List.foldl_cons, ih, List.cons_removeAll]
    unfold addItem hasItem
    cases hknown : p.inventory.contains id with
    | true => rfl
    | false =>
      -- What is removed along with the new item is what it repeats.
      have hremove : ids.removeAll (p.inventory ++ [id]) =
          (ids.removeAll p.inventory).filter fun b => !b == id := by
        unfold List.removeAll
        rw [List.filter_filter]
        refine List.filter_congr fun b _ => ?_
        grind
      rw [if_neg Bool.false_ne_true, if_pos rfl, List.eraseDups_cons, hremove,
        List.append_assoc, List.singleton_append]

/-- The blow of an enemy: how it ends, and the player afterwards. -/
def suffer (p : Player) (enemy : Enemy) : Outcome × Player :=
  let hurt := p.stats.takeDamage (enemy.stats.enemyDamage p.stats)
  if hurt.isBeaten then (.defeat, { p with stats := hurt }.endCombat)
  else (.goesOn, { p with stats := hurt })

/-- One exchange of blows with an enemy: how it ends, and the player afterwards. -/
def exchange (p : Player) (enemy : Enemy) : Outcome × Player :=
  let struck := enemy.stats.takeDamage (p.stats.playerDamage enemy.stats)
  if struck.isBeaten then
    (.victory, { p with
      inventory := p.inventory ++ (enemy.drops.removeAll p.inventory).eraseDups }.endCombat)
  else
    { p with enemy := some { enemy with stats := struck } }.suffer { enemy with stats := struck }

section

variable {p : Player} {enemy : Enemy}

/-- A blow of the enemy that beats the player. -/
theorem suffer_of_fallen
    (h : (p.stats.takeDamage (enemy.stats.enemyDamage p.stats)).isBeaten = true) :
    p.suffer enemy = (.defeat,
      { p with stats := p.stats.takeDamage (enemy.stats.enemyDamage p.stats) }.endCombat) :=
  if_pos h

/-- A blow of the enemy after which the player stands. -/
theorem suffer_of_standing
    (h : ¬(p.stats.takeDamage (enemy.stats.enemyDamage p.stats)).isBeaten = true) :
    p.suffer enemy = (.goesOn,
      { p with stats := p.stats.takeDamage (enemy.stats.enemyDamage p.stats) }) :=
  if_neg h

/-- An exchange of blows that beats the enemy. -/
theorem exchange_of_beaten
    (h : (enemy.stats.takeDamage (p.stats.playerDamage enemy.stats)).isBeaten = true) :
    p.exchange enemy = (.victory, { p with
      inventory := p.inventory ++ (enemy.drops.removeAll p.inventory).eraseDups }.endCombat) :=
  if_pos h

/-- An exchange of blows in which the enemy strikes back. -/
theorem exchange_of_not_beaten
    (h : ¬(enemy.stats.takeDamage (p.stats.playerDamage enemy.stats)).isBeaten = true) :
    p.exchange enemy =
      suffer { p with enemy := some { enemy with
        stats := enemy.stats.takeDamage (p.stats.playerDamage enemy.stats) } }
      { enemy with stats := enemy.stats.takeDamage (p.stats.playerDamage enemy.stats) } :=
  if_neg h

/-- An exchange of blows that beats the player. The damage of the enemy is that before its blow. -/
theorem exchange_of_fallen
    (h : ¬(enemy.stats.takeDamage (p.stats.playerDamage enemy.stats)).isBeaten = true)
    (h' : (p.stats.takeDamage (enemy.stats.enemyDamage p.stats)).isBeaten = true) :
    p.exchange enemy = (.defeat,
      { p with stats := p.stats.takeDamage (enemy.stats.enemyDamage p.stats) }.endCombat) :=
  (exchange_of_not_beaten h).trans (suffer_of_fallen h')

/-- An exchange of blows after which both still stand. -/
theorem exchange_of_standing
    (h : ¬(enemy.stats.takeDamage (p.stats.playerDamage enemy.stats)).isBeaten = true)
    (h' : ¬(p.stats.takeDamage (enemy.stats.enemyDamage p.stats)).isBeaten = true) :
    p.exchange enemy = (.goesOn, { p with
      stats := p.stats.takeDamage (enemy.stats.enemyDamage p.stats)
      enemy := some { enemy with
        stats := enemy.stats.takeDamage (p.stats.playerDamage enemy.stats) } }) :=
  (exchange_of_not_beaten h).trans (suffer_of_standing h')

end

/-- A player after some exchanges of blows with an enemy, in a fight that goes on: what is left of
the two is what the numbers say, and all else is as it was. -/
def Stands (p : Player) (enemy : Enemy) (k : Nat) (q : Player) : Prop :=
  ∃ hp enemyHp : Int32, hp.toInt = p.stats.hp.toInt - k * p.stats.taken enemy.stats ∧
    enemyHp.toInt = enemy.stats.hp.toInt - k * p.stats.dealt enemy.stats ∧
    q = { p with
      stats := { p.stats with hp := hp }
      inCombat := true
      enemy := some { enemy with stats := { enemy.stats with hp := enemyHp } } }

/-- A player after a fight, of whom so much is left and who carries these items; all else is as it
was before the fight. -/
def Leaves (p : Player) (left : Int) (inventory : List String) (q : Player) : Prop :=
  ∃ hp : Int32, hp.toInt = left ∧ q = { p with
    stats := { p.stats with hp := hp }
    inventory := inventory
    inCombat := false
    enemy := none }

/-- A fight goes on after so many exchanges of blows. -/
def Lasts (p : Player) (enemy : Enemy) (k : Nat) : Prop :=
  ∀ j : Nat, 1 ≤ j → j ≤ k → 0 < enemy.stats.hp.toInt - j * p.stats.dealt enemy.stats ∧
    0 < p.stats.hp.toInt - j * p.stats.taken enemy.stats

variable {p q : Player} {enemy : Enemy} {k : Nat}

/-- A fight begins with no exchange of blows. -/
theorem stands_zero (hcombat : p.inCombat = true) (henemy : p.enemy = some enemy) :
    p.Stands enemy 0 p := by
  refine ⟨p.stats.hp, enemy.stats.hp, by simp, by simp, ?_⟩
  rw [← hcombat, ← henemy]

/-- What is left of the enemy after one more blow of the player. The damage depends on the attack
and the defense alone, so it is that of the beginning. -/
theorem toInt_struck (hfits : p.stats.NoOverflow enemy.stats) (hlasts : p.Lasts enemy k)
    (hp : Int32) {enemyHp : Int32}
    (henemyHp : enemyHp.toInt = enemy.stats.hp.toInt - k * p.stats.dealt enemy.stats) :
    (({ enemy.stats with hp := enemyHp } : Stats).takeDamage
      (({ p.stats with hp := hp } : Stats).playerDamage
        { enemy.stats with hp := enemyHp })).hp.toInt =
        enemy.stats.hp.toInt - (k + 1 : Nat) * p.stats.dealt enemy.stats :=
  Stats.toInt_blow (Stats.toInt_playerDamage hfits.dealt)
    (le_trans Int.one_nonneg (le_max_left _ _)) henemyHp hfits.enemyHp
    fun hk => (hlasts k hk le_rfl).1

/-- What is left of the player after one more blow of an enemy that still stands. -/
theorem toInt_hurt (hfits : p.stats.NoOverflow enemy.stats) (hlasts : p.Lasts enemy k)
    (enemyHp : Int32) {hp : Int32}
    (hhp : hp.toInt = p.stats.hp.toInt - k * p.stats.taken enemy.stats)
    (hstands : 0 < enemy.stats.hp.toInt - (k + 1 : Nat) * p.stats.dealt enemy.stats) :
    (({ p.stats with hp := hp } : Stats).takeDamage
      (({ enemy.stats with hp := enemyHp } : Stats).enemyDamage
        { p.stats with hp := hp })).hp.toInt =
        p.stats.hp.toInt - (k + 1 : Nat) * p.stats.taken enemy.stats := by
  -- The enemy stood after the first blow, so it was clear that it strikes back.
  have hfirst : 0 < enemy.stats.hp.toInt - p.stats.dealt enemy.stats := by
    have hdealt : 0 ≤ p.stats.dealt enemy.stats := le_trans Int.one_nonneg (le_max_left _ _)
    have hstep : ((k + 1 : Nat) : Int) * p.stats.dealt enemy.stats =
        k * p.stats.dealt enemy.stats + p.stats.dealt enemy.stats := by
      rw [Int.natCast_add, Int.add_mul, Int.natCast_one, Int.one_mul]
    have hbefore : 0 ≤ (k : Int) * p.stats.dealt enemy.stats :=
      Int.mul_nonneg (Int.natCast_nonneg k) hdealt
    omega
  exact Stats.toInt_blow (Stats.toInt_enemyDamage (hfits.taken hfirst)) (le_max_left _ _) hhp
    (hfits.playerHp hfirst) fun hk => (hlasts k hk le_rfl).2

/-- An exchange of blows in a fight that went on so far: how it ends is what the numbers say. -/
theorem exchange_of_stands (hfits : p.stats.NoOverflow enemy.stats) (hlasts : p.Lasts enemy k)
    (h : p.Stands enemy k q) : ∃ e, q.enemy = some e ∧
      (enemy.stats.hp.toInt - (k + 1 : Nat) * p.stats.dealt enemy.stats ≤ 0 →
        (q.exchange e).1 = .victory ∧
          p.Leaves (p.stats.hp.toInt - k * p.stats.taken enemy.stats)
            (p.inventory ++ (enemy.drops.removeAll p.inventory).eraseDups) (q.exchange e).2) ∧
      (0 < enemy.stats.hp.toInt - (k + 1 : Nat) * p.stats.dealt enemy.stats →
        p.stats.hp.toInt - (k + 1 : Nat) * p.stats.taken enemy.stats ≤ 0 →
          (q.exchange e).1 = .defeat ∧
            p.Leaves (p.stats.hp.toInt - (k + 1 : Nat) * p.stats.taken enemy.stats) p.inventory
              (q.exchange e).2) ∧
      (p.Lasts enemy (k + 1) → (q.exchange e).1 = .goesOn ∧
        p.Stands enemy (k + 1) (q.exchange e).2) := by
  obtain ⟨hp, enemyHp, hhp, henemyHp, rfl⟩ := h
  refine ⟨_, rfl, ?_⟩
  -- The player and the enemy are named, so that what the blows do to them stays readable.
  generalize he : ({ enemy with stats := { enemy.stats with hp := enemyHp } } : Enemy) = e
  generalize hq : ({ p with
      stats := { p.stats with hp := hp }
      inCombat := true
      enemy := some e } : Player) = q
  -- The blow of the player always falls; that of the enemy only if the enemy still stands.
  have hstruck : (e.stats.takeDamage (q.stats.playerDamage e.stats)).hp.toInt =
      enemy.stats.hp.toInt - (k + 1 : Nat) * p.stats.dealt enemy.stats := by
    subst hq he
    exact toInt_struck hfits hlasts hp henemyHp
  have hhurt : 0 < enemy.stats.hp.toInt - (k + 1 : Nat) * p.stats.dealt enemy.stats →
      (q.stats.takeDamage (e.stats.enemyDamage q.stats)).hp.toInt =
        p.stats.hp.toInt - (k + 1 : Nat) * p.stats.taken enemy.stats := by
    subst hq he
    exact toInt_hurt hfits hlasts enemyHp hhp
  -- The three outcomes are told apart by who is beaten, which the two equations decide.
  refine ⟨fun hbeaten => ?_, fun hstands hfallen => ?_, fun hlasts' => ?_⟩
  · have hbeaten' := (Stats.isBeaten_iff _).mpr (hstruck.trans_le hbeaten)
    rw [exchange_of_beaten hbeaten']
    subst hq he
    exact ⟨rfl, hp, hhp, rfl⟩
  · have hstands' := mt (Stats.isBeaten_iff _).mp (not_le.mpr (hstruck.symm ▸ hstands))
    have hfallen' := (Stats.isBeaten_iff _).mpr ((hhurt hstands).trans_le hfallen)
    rw [exchange_of_fallen hstands' hfallen']
    refine ⟨rfl, _, hhurt hstands, ?_⟩
    subst hq he
    rfl
  · obtain ⟨hstands, hstays⟩ := hlasts' (k + 1) (Nat.le_add_left 1 k) le_rfl
    have hstands' := mt (Stats.isBeaten_iff _).mp (not_le.mpr (hstruck.symm ▸ hstands))
    have hstays' := mt (Stats.isBeaten_iff _).mp (not_le.mpr ((hhurt hstands).symm ▸ hstays))
    rw [exchange_of_standing hstands' hstays']
    refine ⟨rfl, _, _, hhurt hstands, hstruck, ?_⟩
    subst hq he
    rfl

end Player

end TextAdventure
