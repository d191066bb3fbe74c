import TextAdventure.Proofs.Json.Canonical
import TextAdventure.Proofs.Json.String

/-!
# JSON texts are read back

The compact and the pretty text of a value differ in the spaces between tokens only. A `Layout` says
which spaces these are, and the reader finds the tree of a value in its text in any layout
(`scanValue_spelled`), if the numbers of the value can be held by a text and it nests no deeper than
the reader follows. It finds the numbers that their texts are read as, and everything else as it was
written. The induction is on the value; the fuel of the reader is measured by the length
of the text.
-/

namespace TextAdventure.Json

/-- The spaces between the tokens of a text. -/
structure Layout where
  /-- What stands before an item or a field, and before the end of an array or object, at a level of
  indentation. -/
  line : Nat → List Char
  /-- What stands after a colon. -/
  colon : List Char
  /-- A line begins with spaces only. -/
  isSpace_line : ∀ level, ∀ c ∈ line level, Reader.isSpace c = true
  /-- Nothing but spaces follows a colon. -/
  isSpace_colon : ∀ c ∈ colon, Reader.isSpace c = true

namespace Layout

mutual

/-- The text of a value in a layout. -/
def spelled (l : Layout) (level : Nat) : Json → List Char
  | .null => ['n', 'u', 'l', 'l']
  | .bool b => Writer.bool b
  | .number n => Writer.number n
  | .string s => Writer.quote s
  | .array [] => ['[', ']']
  | .array (x :: xs) =>
    '[' :: (l.line (level + 1) ++ (l.spelledItems (level + 1) (x :: xs) ++ (l.line level ++ [']'])))
  | .object [] => ['{', '}']
  | .object (f :: fs) =>
    '{' :: (l.line (level + 1) ++
      (l.spelledFields (level + 1) (f :: fs) ++ (l.line level ++ ['}'])))

/-- The texts of the items of an array. -/
def spelledItems (l : Layout) (level : Nat) : List Json → List Char
  | [] => []
  | [x] => l.spelled level x
  | x :: y :: xs => l.spelled level x ++ ',' :: (l.line level ++ l.spelledItems level (y :: xs))

/-- The texts of the fields of an object. -/
def spelledFields (l : Layout) (level : Nat) : List (String × Json) → List Char
  | [] => []
  | [(k, x)] => Writer.quote k ++ ':' :: (l.colon ++ l.spelled level x)
  | (k, x) :: f :: fs =>
    Writer.quote k ++ ':' :: (l.colon ++ (l.spelled level x ++
      ',' :: (l.line level ++ l.spelledFields level (f :: fs))))

end

/-- The layout without spaces. -/
def compact : Layout where
  line _ := []
  colon := []
  isSpace_line := by simp
  isSpace_colon := by simp

/-- The layout with a line for each item and field. -/
def pretty : Layout where
  line := Writer.newLine
  colon := [' ']
  isSpace_line := by
    intro level c hc
    rcases List.mem_cons.mp hc with rfl | hc
    · rfl
    · rw [(List.mem_replicate.mp hc).2]
      rfl
  isSpace_colon := by
    intro c hc
    rw [List.mem_singleton.mp hc]
    rfl

mutual

/-- The compact text of a value is its text without spaces. -/
theorem compact_spelled (level : Nat) : ∀ v : Json, compact.spelled level v = Writer.compact v
  | .null => rfl
  | .bool _ => rfl
  | .number _ => rfl
  | .string _ => rfl
  | .array [] => rfl
  | .array (x :: xs) => by
    rw [spelled, compact_spelledItems, Writer.compact]
    rfl
  | .object [] => rfl
  | .object (f :: fs) => by
    rw [spelled, compact_spelledFields, Writer.compact]
    rfl

/-- `compact_spelled` for the items of an array. -/
theorem compact_spelledItems (level : Nat) :
    ∀ items : List Json, compact.spelledItems level items = Writer.compactItems items
  | [] => rfl
  | [x] => by rw [spelledItems, compact_spelled, Writer.compactItems]
  | x :: y :: xs => by
    rw [spelledItems, compact_spelled, compact_spelledItems, Writer.compactItems]
    rfl

/-- `compact_spelled` for the fields of an object. -/
theorem compact_spelledFields (level : Nat) :
    ∀ fields : List (String × Json),
      compact.spelledFields level fields = Writer.compactFields fields
  | [] => rfl
  | [(k, x)] => by
    rw [spelledFields, compact_spelled, Writer.compactFields]
    rfl
  | (k, x) :: f :: fs => by
    rw [spelledFields, compact_spelled, compact_spelledFields, Writer.compactFields]
    rfl

end

mutual

/-- The pretty text of a value is its text with a line for each item and field. -/
theorem pretty_spelled (level : Nat) : ∀ v : Json, pretty.spelled level v = Writer.pretty level v
  | .null => rfl
  | .bool _ => rfl
  | .number _ => rfl
  | .string _ => rfl
  | .array [] => rfl
  | .array (x :: xs) => by
    rw [spelled, pretty_spelledItems, Writer.pretty]
    simp only [pretty, List.cons_append, List.append_assoc]
  | .object [] => rfl
  | .object (f :: fs) => by
    rw [spelled, pretty_spelledFields, Writer.pretty]
    simp only [pretty, List.cons_append, List.append_assoc]

/-- `pretty_spelled` for the items of an array. -/
theorem pretty_spelledItems (level : Nat) :
    ∀ items : List Json, pretty.spelledItems level items = Writer.prettyItems level items
  | [] => rfl
  | [x] => by rw [spelledItems, pretty_spelled, Writer.prettyItems]
  | x :: y :: xs => by
    rw [spelledItems, pretty_spelled, pretty_spelledItems, Writer.prettyItems]
    simp only [pretty, List.cons_append, List.append_assoc]

/-- `pretty_spelled` for the fields of an object. -/
theorem pretty_spelledFields (level : Nat) :
    ∀ fields : List (String × Json),
      pretty.spelledFields level fields = Writer.prettyFields level fields
  | [] => rfl
  | [(k, x)] => by
    rw [spelledFields, pretty_spelled, Writer.prettyFields]
    rfl
  | (k, x) :: f :: fs => by
    rw [spelledFields, pretty_spelled, pretty_spelledFields, Writer.prettyFields]
    simp only [pretty, List.cons_append, List.append_assoc, List.nil_append]

end

end Layout

namespace Reader

variable {rest : List Char} {fuel levels : Nat} {exact : Bool}

/-! ### Spaces -/

/-- Spaces are skipped. -/
theorem skip_append {gap : List Char} (h : ∀ c ∈ gap, isSpace c = true) (cs : List Char) :
    skip (gap ++ cs) = skip cs := List.dropWhile_append_of_pos h

/-- A character that is no space is not skipped. -/
theorem skip_cons {c : Char} (h : isSpace c = false) (cs : List Char) :
    skip (c :: cs) = c :: cs := by
  unfold skip
  rw [List.dropWhile_cons, h]
  rfl

/-- A space does not belong to a number, nor does what may follow it. -/
theorem AfterNumber.append {gap : List Char} (h : ∀ c ∈ gap, isSpace c = true)
    (hrest : AfterNumber rest) : AfterNumber (gap ++ rest) := by
  cases gap with
  | nil => exact hrest
  | cons d gap =>
    intro c hc
    cases hc
    have hd := h d List.mem_cons_self
    unfold isSpace at hd
    simp only [Bool.or_eq_true, beq_iff_eq] at hd
    rcases hd with ((rfl | rfl) | rfl) | rfl <;> decide

/-- A character that ends a value does not belong to a number. -/
theorem afterNumber_cons {c : Char} (h : c = ',' ∨ c = ']' ∨ c = '}') :
    AfterNumber (c :: rest) := by
  intro d hd
  cases hd
  rcases h with rfl | rfl | rfl <;> decide

/-! ### How values begin -/

/-- A character with which the text of a value may begin. -/
def Begins (c : Char) : Prop := isSpace c = false ∧ c ≠ ']' ∧ c ≠ '}'

/-- A number begins with its sign or a digit. -/
theorem head_of_scanNumber {cs : List Char} {r : Literal × List Char} (h : scanNumber cs = some r) :
    ∃ c cs', cs = c :: cs' ∧ (c = '-' ∨ c.isDigit = true) := by
  cases cs with
  | nil => cases h
  | cons c cs =>
    refine ⟨c, cs, rfl, ?_⟩
    by_contra hc
    obtain ⟨hminus, hdigit⟩ := not_or.mp hc
    have hscan : scanNumber (c :: cs) = scanUnsigned false (c :: cs) := by
      unfold scanNumber
      split
      · next heq => exact absurd (List.cons.inj heq).1 hminus
      · rfl
    have hnone : scanUnsigned false (c :: cs) = none := by
      unfold scanUnsigned scanDigits
      rw [List.takeWhile_cons, if_neg hdigit]
      rfl
    rw [hscan, hnone] at h
    cases h

/-- A sign or a digit begins a number and no other value. -/
theorem scanValue_of_scanNumber {cs : List Char} {l : Literal}
    (h : scanNumber cs = some (l, rest)) :
    scanValue (fuel + 1) levels cs = some ((l.number?.map Tree.number).getD .refused, rest) := by
  -- Which branch of the reader is taken depends on the first character.
  obtain ⟨c, cs', rfl, hc⟩ := head_of_scanNumber h
  have hne : ∀ d : Char, d ≠ '-' → d.isDigit = false → c ≠ d := by
    rintro d hminus hdigit rfl
    rcases hc with hc | hc
    · exact hminus hc
    · rw [hdigit] at hc
      cases hc
  -- The other branches of the reader begin with other characters.
  rw [scanValue]
  · rw [h]
    rfl
  · intro _ heq
    exact hne 'n' (by decide) (by decide) (List.cons.inj heq).1
  · intro _ heq
    exact hne 't' (by decide) (by decide) (List.cons.inj heq).1
  · intro _ heq
    exact hne 'f' (by decide) (by decide) (List.cons.inj heq).1
  · intro _ heq
    exact hne '"' (by decide) (by decide) (List.cons.inj heq).1
  · intro _ heq
    exact hne '[' (by decide) (by decide) (List.cons.inj heq).1
  · intro _ heq
    exact hne '{' (by decide) (by decide) (List.cons.inj heq).1

/-- The text of a value begins with a character with which it may begin. -/
theorem spelled_eq_cons (l : Layout) (level : Nat) {v : Json} (hv : v.Held exact) :
    ∃ c cs, l.spelled level v = c :: cs ∧ Begins c := by
  -- A number begins with a sign or a digit, which is no space and ends nothing.
  have hbegins : ∀ {c : Char}, c = '-' ∨ c.isDigit = true → Begins c := by
    intro c hc
    refine ⟨?_, ?_, ?_⟩
    · unfold isSpace
      simp only [Bool.or_eq_false_iff, beq_eq_false_iff_ne]
      refine ⟨⟨⟨?_, ?_⟩, ?_⟩, ?_⟩ <;> rintro rfl <;> revert hc <;> decide
    · rintro rfl
      revert hc
      decide
    · rintro rfl
      revert hc
      decide
  cases v with
  | null => exact ⟨_, _, rfl, by decide, by decide, by decide⟩
  | bool b => cases b <;> exact ⟨_, _, rfl, by decide, by decide, by decide⟩
  | number n =>
    have hnothing : AfterNumber [] := fun c hc => by cases hc
    obtain ⟨_, hscan, -⟩ := scanNumber_number hv.1
    obtain ⟨c, cs, heq, hc⟩ := head_of_scanNumber (hscan [] hnothing)
    rw [List.append_nil] at heq
    exact ⟨c, cs, heq, hbegins hc⟩
  | string s => exact ⟨_, _, rfl, by decide, by decide, by decide⟩
  | array items => cases items <;> exact ⟨_, _, rfl, by decide, by decide, by decide⟩
  | object fields => cases fields <;> exact ⟨_, _, rfl, by decide, by decide, by decide⟩

/-- The text of items begins as the first of them does. -/
theorem spelledItems_eq_cons (l : Layout) (level : Nat) {x : Json} (xs : List Json)
    (hx : x.Held exact) : ∃ c cs, l.spelledItems level (x :: xs) = c :: cs ∧ Begins c := by
  obtain ⟨c, cs, heq, hc⟩ := spelled_eq_cons l level hx
  cases xs with
  | nil => exact ⟨c, cs, heq, hc⟩
  | cons y ys => exact ⟨c, _, by rw [Layout.spelledItems, heq]; rfl, hc⟩

/-- The text of fields begins with a quote. -/
theorem spelledFields_eq_cons (l : Layout) (level : Nat) (f : String × Json)
    (fs : List (String × Json)) : ∃ cs, l.spelledFields level (f :: fs) = '"' :: cs := by
  obtain ⟨k, x⟩ := f
  cases fs <;> exact ⟨_, rfl⟩

/-! ### One token after the other -/

/-- An array of items is scanned between its brackets. -/
theorem scanValue_array {gap text : List Char} {items : List Tree} (hlevels : 0 < levels)
    (hgap : ∀ c ∈ gap, isSpace c = true) (htext : ∃ c cs, text = c :: cs ∧ Begins c)
    (h : scanItems fuel (levels - 1) text = some (items, rest)) :
    scanValue (fuel + 1) levels ('[' :: (gap ++ text)) = some (.array items, rest) := by
  obtain ⟨c, cs, rfl, hspace, hend, -⟩ := htext
  rw [scanValue, skip_append hgap, skip_cons hspace]
  split
  · next heq => exact absurd (List.cons.inj heq).1 hend
  · rw [h]
    simp [contained, hlevels.ne']

/-- An object of fields is scanned between its braces. -/
theorem scanValue_object {gap text : List Char} {fields : List (Option String × Tree)}
    (hlevels : 0 < levels) (hgap : ∀ c ∈ gap, isSpace c = true)
    (h : scanFields fuel (levels - 1) ('"' :: text) = some (fields, rest)) :
    scanValue (fuel + 1) levels ('{' :: (gap ++ '"' :: text)) = some (objectOf fields, rest) := by
  rw [scanValue, skip_append hgap, skip_cons (by decide)]
  split
  · next heq => cases heq
  · rw [h]
    simp [contained, hlevels.ne']

/-- The last item stands before the end of the array. -/
theorem scanItems_last {gap text : List Char} {t : Tree} (hgap : ∀ c ∈ gap, isSpace c = true)
    (h : scanValue fuel levels text = some (t, gap ++ ']' :: rest)) :
    scanItems (fuel + 1) levels text = some ([t], rest) := by
  rw [scanItems, h]
  simp [skip_append hgap, skip_cons (c := ']') (by decide)]

/-- An item that is not the last stands before a comma. -/
theorem scanItems_more {gap text more : List Char} {t : Tree} {items : List Tree}
    (hgap : ∀ c ∈ gap, isSpace c = true) (hmore : ∃ c cs, more = c :: cs ∧ Begins c)
    (h : scanValue fuel levels text = some (t, ',' :: (gap ++ more)))
    (hitems : scanItems fuel levels more = some (items, rest)) :
    scanItems (fuel + 1) levels text = some (t :: items, rest) := by
  obtain ⟨c, cs, rfl, hspace, -⟩ := hmore
  rw [scanItems, h]
  simp [skip_append hgap, skip_cons (c := ',') (by decide), skip_cons hspace, hitems]

/-- A key is quoted before its value. -/
theorem quote_append (k : String) (text : List Char) :
    Writer.quote k ++ ':' :: text =
      '"' :: (k.toList.flatMap Writer.escape ++ '"' :: ':' :: text) := by
  simp [Writer.quote]

/-- The last field stands before the end of the object. -/
theorem scanFields_last {gap gap' text : List Char} {k : String} {t : Tree}
    (hgap : ∀ c ∈ gap, isSpace c = true) (hgap' : ∀ c ∈ gap', isSpace c = true)
    (htext : ∃ c cs, text = c :: cs ∧ Begins c)
    (h : scanValue fuel levels text = some (t, gap' ++ '}' :: rest)) :
    scanFields (fuel + 1) levels (Writer.quote k ++ ':' :: (gap ++ text)) =
      some ([(some k, t)], rest) := by
  obtain ⟨c, cs, rfl, hspace, -⟩ := htext
  rw [quote_append, scanFields, scanString_quote]
  simp [skip_cons (c := ':') (by decide), skip_append hgap, skip_cons hspace, h,
    skip_append hgap', skip_cons (c := '}') (by decide), stringOf?_pieceOf]

/-- A field that is not the last stands before a comma. -/
theorem scanFields_more {gap gap' text more : List Char} {k : String} {t : Tree}
    {fields : List (Option String × Tree)} (hgap : ∀ c ∈ gap, isSpace c = true)
    (hgap' : ∀ c ∈ gap', isSpace c = true) (htext : ∃ c cs, text = c :: cs ∧ Begins c)
    (h : scanValue fuel levels text = some (t, ',' :: (gap' ++ '"' :: more)))
    (hfields : scanFields fuel levels ('"' :: more) = some (fields, rest)) :
    scanFields (fuel + 1) levels (Writer.quote k ++ ':' :: (gap ++ text)) =
      some ((some k, t) :: fields, rest) := by
  obtain ⟨c, cs, rfl, hspace, -⟩ := htext
  rw [quote_append, scanFields, scanString_quote]
  simp [skip_cons (c := ':') (by decide), skip_append hgap, skip_cons hspace, h,
    skip_cons (c := ',') (by decide), skip_append hgap', skip_cons (c := '"') (by decide), hfields,
    stringOf?_pieceOf]

/-! ### Values -/

/-- Keys that are strings are the keys of an object. -/
theorem objectOf_some (fields : List (String × Tree)) :
    objectOf (fields.map fun f => (some f.1, f.2)) = .object fields := by
  have hkeys : (fields.map fun f => (some f.1, f.2)).mapM (fun f => f.1.map (·, f.2)) =
      some fields := by
    induction fields with
    | nil => rfl
    | cons f fs ih =>
      rw [List.map_cons, List.mapM_cons, ih]
      rfl
  unfold objectOf
  rw [hkeys]

mutual

/-- A value is read from its text in any layout, with the numbers that their texts are read as. -/
theorem scanValue_spelled (l : Layout) : ∀ (v : Json) (fuel levels level : Nat) (rest : List Char),
    v.Held exact → v.depth ≤ levels → 2 * (l.spelled level v).length ≤ fuel → AfterNumber rest →
    scanValue fuel levels (l.spelled level v ++ rest) = some (v.reread.toTree, rest)
  | v, 0, _, level, _, hv, _, hfuel, _ => by
    -- The fuel is twice the length of the text, and no text is empty.
    obtain ⟨c, cs, heq, -⟩ := spelled_eq_cons l level hv
    rw [heq, List.length_cons] at hfuel
    omega
  | .null, fuel + 1, _, _, _, _, _, _, _ => by
    simp only [Layout.spelled, List.cons_append, List.nil_append]
    rw [scanValue]
    rfl
  | .bool true, fuel + 1, _, _, _, _, _, _, _ => by
    simp only [Layout.spelled, Writer.bool, if_true, List.cons_append, List.nil_append]
    rw [scanValue]
    rfl
  | .bool false, fuel + 1, _, _, _, _, _, _, _ => by
    simp only [Layout.spelled, Writer.bool, Bool.false_eq_true, if_false, List.cons_append,
      List.nil_append]
    rw [scanValue]
    rfl
  -- What follows a number may not go on with it.
  | .number n, fuel + 1, _, _, _, hv, _, _, hrest => by
    obtain ⟨lit, hscan, hnumber⟩ := scanNumber_number (n := n) hv.1
    rw [Layout.spelled, scanValue_of_scanNumber (hscan _ hrest), hnumber]
    rfl
  | .string s, fuel + 1, _, _, rest, _, _, _, _ => by
    have htext : Writer.quote s ++ rest =
        '"' :: (s.toList.flatMap Writer.escape ++ '"' :: rest) := by simp [Writer.quote]
    rw [Layout.spelled, htext, scanValue, scanString_quote]
    simp [stringOf?_pieceOf, reread, toTree]
  | .array [], fuel + 1, levels, _, rest, _, hdepth, _, _ => by
    simp only [Layout.spelled, List.cons_append, List.nil_append]
    -- An empty array takes a level even so.
    have hlevels : levels ≠ 0 := by
      have hpos : 0 < (Json.array []).depth := Nat.succ_pos _
      omega
    rw [scanValue]
    simp [skip_cons (c := ']') (by decide), contained, hlevels, reread, rereadItems, toTree,
      itemsToTree]
  -- Behind the bracket the items are read with one level and one unit of fuel less.
  | .array (x :: xs), fuel + 1, levels, level, rest, hv, hdepth, hfuel, hrest => by
    have hlevels : itemsDepth (x :: xs) + 1 ≤ levels := hdepth
    simp only [Layout.spelled, List.length_cons, List.length_append] at hfuel
    have hitems := scanItems_spelled l (x :: xs) fuel (levels - 1) (level + 1) (l.line level) rest
      (by simp) hv (by omega) (by omega) (l.isSpace_line level)
    obtain ⟨c, cs, heq, hc⟩ := spelledItems_eq_cons l (level + 1) xs hv.1
    simp only [Layout.spelled, List.cons_append, List.append_assoc, List.nil_append]
    exact scanValue_array (by omega) (l.isSpace_line _) ⟨c, _, by rw [heq]; rfl, hc⟩ hitems
  | .object [], fuel + 1, levels, _, rest, _, hdepth, _, _ => by
    simp only [Layout.spelled, List.cons_append, List.nil_append]
    have hlevels : levels ≠ 0 := by
      have hpos : 0 < (Json.object []).depth := Nat.succ_pos _
      omega
    rw [scanValue]
    simp [skip_cons (c := '}') (by decide), contained, hlevels, reread, rereadFields, toTree,
      fieldsToTree]
  -- The same for fields, each of which begins with its key.
  | .object ((k, x) :: fs), fuel + 1, levels, level, rest, hv, hdepth, hfuel, hrest => by
    have hlevels : fieldsDepth ((k, x) :: fs) + 1 ≤ levels := hdepth
    simp only [Layout.spelled, List.length_cons, List.length_append] at hfuel
    have hfields := scanFields_spelled l ((k, x) :: fs) fuel (levels - 1) (level + 1) (l.line level)
      rest (by simp) hv (by omega) (by omega) (l.isSpace_line level)
    obtain ⟨cs, heq⟩ := spelledFields_eq_cons l (level + 1) (k, x) fs
    simp only [Layout.spelled, List.cons_append, List.append_assoc, List.nil_append, heq]
      at hfields ⊢
    rw [scanValue_object (by omega) (l.isSpace_line _) hfields, objectOf_some]
    rfl

/-- The items of an array are read from their texts. -/
theorem scanItems_spelled (l : Layout) : ∀ (items : List Json) (fuel levels level : Nat)
    (gap rest : List Char), items ≠ [] → HeldItems exact items → itemsDepth items ≤ levels →
    2 * (l.spelledItems level items).length + 1 ≤ fuel → (∀ c ∈ gap, isSpace c = true) →
    scanItems fuel levels (l.spelledItems level items ++ (gap ++ ']' :: rest)) =
      some (itemsToTree (rereadItems items), rest)
  | [], _, _, _, _, _, hne, _, _, _, _ => absurd rfl hne
  | _ :: _, 0, _, _, _, _, _, _, _, hfuel, _ => absurd hfuel (by omega)
  | [x], fuel + 1, levels, level, gap, rest, _, hv, hdepth, hfuel, hgap => by
    simp only [Layout.spelledItems] at hfuel
    have hvalue := scanValue_spelled l x fuel levels level (gap ++ ']' :: rest) hv.1
      (le_trans (le_max_left _ _) hdepth) (by omega) (.append hgap (afterNumber_cons (by simp)))
    rw [Layout.spelledItems]
    exact scanItems_last hgap hvalue
  | x :: y :: xs, fuel + 1, levels, level, gap, rest, _, hv, hdepth, hfuel, hgap => by
    simp only [Layout.spelledItems, List.length_append, List.length_cons] at hfuel
    have hvalue := scanValue_spelled l x fuel levels level
      (',' :: (l.line level ++ (l.spelledItems level (y :: xs) ++ (gap ++ ']' :: rest))))
      hv.1 (le_trans (le_max_left _ _) hdepth) (by omega) (afterNumber_cons (by simp))
    have hitems := scanItems_spelled l (y :: xs) fuel levels level gap rest (by simp) hv.2
      (le_trans (le_max_right _ _) hdepth) (by omega) hgap
    obtain ⟨c, cs, heq, hc⟩ := spelledItems_eq_cons l level xs hv.2.1
    simp only [Layout.spelledItems, List.cons_append, List.append_assoc]
    exact scanItems_more (l.isSpace_line level) ⟨c, _, by rw [heq]; rfl, hc⟩ hvalue hitems

/-- The fields of an object are read from their texts. -/
theorem scanFields_spelled (l : Layout) :
    ∀ (fields : List (String × Json)) (fuel levels level : Nat) (gap rest : List Char),
      fields ≠ [] → HeldFields exact fields → fieldsDepth fields ≤ levels →
      2 * (l.spelledFields level fields).length + 1 ≤ fuel → (∀ c ∈ gap, isSpace c = true) →
      scanFields fuel levels (l.spelledFields level fields ++ (gap ++ '}' :: rest)) =
        some ((fieldsToTree (rereadFields fields)).map fun f => (some f.1, f.2), rest)
  | [], _, _, _, _, _, hne, _, _, _, _ => absurd rfl hne
  | _ :: _, 0, _, _, _, _, _, _, _, hfuel, _ => absurd hfuel (by omega)
  | [(k, x)], fuel + 1, levels, level, gap, rest, _, hv, hdepth, hfuel, hgap => by
    simp only [Layout.spelledFields, List.length_append, List.length_cons] at hfuel
    have hvalue := scanValue_spelled l x fuel levels level (gap ++ '}' :: rest) hv.1
      (le_trans (le_max_left _ _) hdepth) (by omega) (.append hgap (afterNumber_cons (by simp)))
    obtain ⟨c, cs, heq, hc⟩ := spelled_eq_cons l level hv.1
    simp only [Layout.spelledFields, List.cons_append, List.append_assoc]
    exact scanFields_last l.isSpace_colon hgap ⟨c, _, by rw [heq]; rfl, hc⟩ hvalue
  | (k, x) :: f :: fs, fuel + 1, levels, level, gap, rest, _, hv, hdepth, hfuel, hgap => by
    simp only [Layout.spelledFields, List.length_append, List.length_cons] at hfuel
    have hvalue := scanValue_spelled l x fuel levels level
      (',' :: (l.line level ++ (l.spelledFields level (f :: fs) ++ (gap ++ '}' :: rest))))
      hv.1 (le_trans (le_max_left _ _) hdepth) (by omega) (afterNumber_cons (by simp))
    have hfields := scanFields_spelled l (f :: fs) fuel levels level gap rest (by simp) hv.2
      (le_trans (le_max_right _ _) hdepth) (by omega) hgap
    obtain ⟨c, cs, heq, hc⟩ := spelled_eq_cons l level hv.1
    obtain ⟨cs', heq'⟩ := spelledFields_eq_cons l level f fs
    simp only [Layout.spelledFields, List.cons_append, List.append_assoc]
    -- What follows the comma is a quote, which ends the spaces.
    rw [heq'] at hvalue hfields ⊢
    exact scanFields_more l.isSpace_colon (l.isSpace_line level) ⟨c, _, by rw [heq]; rfl, hc⟩ hvalue
      hfields

end

/-- A text that holds a value in any layout, with spaces behind it, says the tree of the value with
the numbers that their texts are read as. -/
theorem read_spelled (l : Layout) {v : Json} {gap : List Char} (hv : v.Held exact)
    (hdepth : v.depth ≤ maxNesting) (hgap : ∀ c ∈ gap, isSpace c = true) :
    read (l.spelled 0 v ++ gap) = some v.reread.toTree := by
  obtain ⟨c, cs, heq, hspace, -⟩ := spelled_eq_cons l 0 hv
  have hskip : skip (l.spelled 0 v ++ gap) = l.spelled 0 v ++ gap := by
    rw [heq]
    exact skip_cons hspace _
  have hafter : AfterNumber gap := by
    rw [← List.append_nil gap]
    exact .append hgap fun c hc => by cases hc
  -- Nothing is left behind the value but spaces.
  have hempty : skip gap = [] := by
    rw [← List.append_nil gap, skip_append hgap]
    rfl
  have hfuel : 2 * (l.spelled 0 v).length ≤ 2 * (l.spelled 0 v ++ gap).length + 2 := by
    rw [List.length_append]
    omega
  unfold read
  rw [hskip, scanValue_spelled l v _ _ _ _ hv hdepth hfuel hafter]
  simp [hempty]

end Reader

variable {exact : Bool}

/-- The compact text of a value says its tree, with the numbers that their texts are read as. -/
theorem Tree.ofText?_compactText {v : Json} (hv : v.Held exact)
    (hdepth : v.depth ≤ Reader.maxNesting) : Tree.ofText? v.compactText = some v.reread.toTree := by
  unfold Tree.ofText? compactText
  rw [String.toList_ofList, ← Layout.compact_spelled 0, ← List.append_nil (Layout.spelled _ _ _)]
  exact Reader.read_spelled _ hv hdepth (by simp)

/-- The pretty text of a value says its tree, with the numbers that their texts are read as, with or
without spaces behind it. -/
theorem Tree.ofText?_prettyText {v : Json} (hv : v.Held exact)
    (hdepth : v.depth ≤ Reader.maxNesting) {gap : String}
    (hgap : ∀ c ∈ gap.toList, Reader.isSpace c = true) :
    Tree.ofText? (v.prettyText ++ gap) = some v.reread.toTree := by
  unfold Tree.ofText? prettyText
  rw [String.toList_append, String.toList_ofList, ← Layout.pretty_spelled 0]
  exact Reader.read_spelled _ hv hdepth hgap

end TextAdventure.Json
