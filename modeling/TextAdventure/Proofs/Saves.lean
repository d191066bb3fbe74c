import TextAdventure.Saves
import TextAdventure.Proofs.Table

/-!
# Saves under one key

What a call to the store does to one key does not depend on what is under the others: it does the
same when the rest of the store is another one (`get_laidOver`, `put_laidOver`,
`remove_laidOver`). Keys are as different as those whom they belong to: in a store in which the ids
of adventures contain no colon, the key of a save tells the adventure and the name of the player,
whatever the name contains (`key_inj`).
-/

namespace TextAdventure.Saves

variable {s : Saves} {key : String}

/-- No call to the store fails, now or later. -/
structure Reliable (s : Saves) : Prop where
  /-- Reads are not limited. -/
  gets : s.gets = none
  /-- Writes are not limited. -/
  puts : s.puts = none
  /-- Deletions are not limited. -/
  removes : s.removes = none

/-- A new store is reliable. -/
theorem reliable_empty : empty.Reliable := ⟨rfl, rfl, rfl⟩

/-- A reliable store is its entries. -/
theorem Reliable.eq (h : s.Reliable) : s = ⟨s.entries, none, none, none⟩ := by
  obtain ⟨entries, gets, puts, removes⟩ := s
  obtain ⟨rfl, rfl, rfl⟩ : gets = none ∧ puts = none ∧ removes = none := ⟨h.gets, h.puts, h.removes⟩
  rfl

/-- The store that has under one key what `s` has, and under all others what `others` has. -/
def laidOver (s : Saves) (key : String) (others : Table ByteArray) : Saves :=
  { s with entries := s.entries.laidOver key others }

/-- A store over its own entries is itself. -/
@[simp]
theorem laidOver_self (s : Saves) (key : String) : s.laidOver key s.entries = s := by
  unfold laidOver
  rw [Table.laidOver_self]

/-- Of two reliable stores that have the same under a key, one is the other over its own entries. -/
theorem Reliable.eq_laidOver {t : Saves} (hs : s.Reliable) (ht : t.Reliable)
    (h : t.entries.get? key = s.entries.get? key) : t = s.laidOver key t.entries := by
  have hentries : t.entries = s.entries.laidOver key t.entries := Table.ext_get? fun key' => by
    rw [Table.get?_laidOver]
    split_ifs with hk
    · rw [hk, h]
    · rfl
  rw [hs.eq, ht.eq]
  unfold laidOver
  rw [← hentries]

/-- Reading a key takes no notice of the others. -/
theorem get_laidOver (s : Saves) (key : String) (others : Table ByteArray) :
    (s.laidOver key others).get key = ((s.get key).1, (s.get key).2.laidOver key others) := by
  unfold get laidOver
  cases spend s.gets with
  | none => rfl
  | some left => simp only [Table.get?_laidOver, if_true]

/-- Writing a key takes no notice of the others. -/
theorem put_laidOver (s : Saves) (key : String) (value : ByteArray) (others : Table ByteArray) :
    (s.laidOver key others).put key value =
      ((s.put key value).1, (s.put key value).2.laidOver key others) := by
  unfold put laidOver
  cases spend s.puts with
  | none => rfl
  | some left => simp only [Table.laidOver_insert]

/-- Deleting a key takes no notice of the others. -/
theorem remove_laidOver (s : Saves) (key : String) (others : Table ByteArray) :
    (s.laidOver key others).remove key =
      ((s.remove key).1, (s.remove key).2.laidOver key others) := by
  unfold remove laidOver
  cases spend s.removes with
  | none => rfl
  | some left => simp only [Table.laidOver_erase]

/-- A reliable store stays reliable when it is read. -/
theorem Reliable.get (h : s.Reliable) (key : String) : (s.get key).2.Reliable := by
  unfold Saves.get
  rw [h.gets]
  exact ⟨rfl, h.puts, h.removes⟩

/-- A reliable store stays reliable when it is written. -/
theorem Reliable.put (h : s.Reliable) (key : String) (value : ByteArray) :
    (s.put key value).2.Reliable := by
  unfold Saves.put
  rw [h.puts]
  exact ⟨h.gets, rfl, h.removes⟩

/-- A reliable store stays reliable when something is deleted. -/
theorem Reliable.remove (h : s.Reliable) (key : String) : (s.remove key).2.Reliable := by
  unfold Saves.remove
  rw [h.removes]
  exact ⟨h.gets, h.puts, rfl⟩

/-- The first colon of a text that continues one without colons is where that one ends. -/
theorem eq_of_append_colon {as as' bs bs' : List Char} (has : ':' ∉ as) (has' : ':' ∉ as')
    (h : as ++ ':' :: bs = as' ++ ':' :: bs') : as = as' ∧ bs = bs' := by
  induction as generalizing as' with
  | nil =>
    cases as' with
    | nil => exact ⟨rfl, (List.cons.inj h).2⟩
    | cons c cs => exact absurd ((List.cons.inj h).1 ▸ List.mem_cons_self) has'
  | cons c cs ih =>
    cases as' with
    | nil => exact absurd ((List.cons.inj h).1 ▸ List.mem_cons_self) has
    | cons d ds =>
      obtain ⟨hcd, htail⟩ := List.cons.inj h
      have hcs : ':' ∉ cs := fun hc => has (List.mem_cons_of_mem _ hc)
      have hds : ':' ∉ ds := fun hd => has' (List.mem_cons_of_mem _ hd)
      obtain ⟨hrest, hbs⟩ := ih hcs hds htail
      exact ⟨by rw [hcd, hrest], hbs⟩

/-- The key of a save tells the adventure and the name of the player. -/
theorem key_inj {mark adventure adventure' : String} {identity identity' : Option String}
    (ha : ':' ∉ adventure.toList) (ha' : ':' ∉ adventure'.toList)
    (h : Saves.key mark adventure identity = Saves.key mark adventure' identity') :
    adventure = adventure' ∧ identityName identity = identityName identity' := by
  have hlist := congrArg String.toList h
  simp only [Saves.key, String.toList_append, List.append_assoc, List.append_cancel_left_eq]
    at hlist
  obtain ⟨hadventure, hname⟩ := eq_of_append_colon ha ha' hlist
  exact ⟨String.toList_inj.mp hadventure, String.toList_inj.mp hname⟩

end TextAdventure.Saves
