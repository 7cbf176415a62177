import LexicalScope.Json.Reader
import LexicalScope.Json.Writer
import Mathlib.Data.List.TakeDrop
import Mathlib.Data.List.TakeWhile

/-!
A numeral or a quoted text is read back from what is written for it, and the reading stops where
the writing did. A numeral has no end of its own, so what follows it must not go on with it.
-/

namespace LexicalScope.Json

/-! ## Numbers -/

/-- The text goes on with nothing that a numeral could take in. -/
def EndsNumeral (rest : List Char) : Prop :=
  ∀ c ∈ rest.head?, c.isDigit = false ∧ c ≠ '.' ∧ c ≠ 'e' ∧ c ≠ 'E'

theorem endsNumeral_cons {c : Char} (ends : c.isDigit = false ∧ c ≠ '.' ∧ c ≠ 'e' ∧ c ≠ 'E')
    (s : List Char) : EndsNumeral (c :: s) := by
  rintro d (_ | _)
  exact ends

theorem endsNumeral_space {s : List Char} (blank : ∀ c ∈ s, isSpace c = true) : EndsNumeral s := by
  cases s with
  | nil => rintro d (_ | _)
  | cons c rest =>
    refine endsNumeral_cons ?_ rest
    have space := blank c (List.mem_cons_self ..)
    simp only [isSpace, Bool.or_eq_true, decide_eq_true_eq] at space
    obtain ((rfl | rfl) | rfl) | rfl := space <;> decide

theorem takeDigits_append {digits rest : List Char} (all : ∀ c ∈ digits, c.isDigit = true)
    (ends : EndsNumeral rest) : takeDigits (digits ++ rest) = (digits, rest) := by
  have stops : rest.takeWhile Char.isDigit = [] ∧ rest.dropWhile Char.isDigit = rest := by
    cases rest with
    | nil => exact ⟨rfl, rfl⟩
    | cons c after => simp [(ends c rfl).1]
  rw [takeDigits, List.span_eq_takeWhile_dropWhile, List.takeWhile_append_of_pos all,
    List.dropWhile_append_of_pos all, stops.1, stops.2, List.append_nil]

theorem toDigits_isDigit (n : Nat) : ∀ c ∈ Nat.toDigits 10 n, c.isDigit = true := by
  intro c member
  exact Nat.isDigit_of_mem_toDigits (by decide) (Nat.le_refl 10) member

/-- Only zero is written with a zero first. -/
theorem toDigits_first (n : Nat) :
    ∃ c after, Nat.toDigits 10 n = c :: after ∧ c.isDigit = true ∧ (c = '0' → n = 0) := by
  induction n using Nat.strongRecOn with
  | ind n ih =>
    rw [Nat.toDigits_eq_if (by decide)]
    split
    · rename_i small
      exact ⟨_, [], rfl, by simp [small], by simp⟩
    · rename_i large
      obtain ⟨c, after, shown, digit, zero⟩ := ih (n / 10) (by omega)
      refine ⟨c, after ++ [Nat.digitChar (n % 10)], by simp [shown], digit, ?_⟩
      intro first
      have := zero first
      omega

theorem takeWhole_toDigits (n : Nat) {rest : List Char} (ends : EndsNumeral rest) :
    takeWhole (Nat.toDigits 10 n ++ rest) = some (Nat.toDigits 10 n, rest) := by
  have digits := takeDigits_append (toDigits_isDigit n) ends
  obtain ⟨c, after, shown, _, zero⟩ := toDigits_first n
  by_cases first : c = '0'
  · obtain rfl := zero first
    rfl
  · unfold takeWhole
    rw [digits, shown]
    split
    · rename_i starts
      exact absurd (List.cons.inj starts).1 first
    · rfl

theorem takeFraction_of_ends {rest : List Char} (ends : EndsNumeral rest) :
    takeFraction rest = ([], rest) := by
  unfold takeFraction
  split
  · exact absurd rfl (ends '.' rfl).2.1
  · rfl

theorem takeExponent_of_ends {rest : List Char} (ends : EndsNumeral rest) :
    takeExponent rest = (none, rest) := by
  cases rest with
  | nil => rfl
  | cons c after => simp [takeExponent, (ends c rfl).2.2.1, (ends c rfl).2.2.2]

theorem readNumber_negative {unsigned digits rest : List Char}
    (whole : takeWhole unsigned = some (digits, rest)) (ends : EndsNumeral rest) :
    readNumber ('-' :: unsigned) = some (.int (-(digitsValue digits : Int)), rest) := by
  unfold readNumber
  split
  rename_i negative after sign
  split at sign
  · rename_i same
    obtain ⟨rfl, rfl⟩ := Prod.mk.inj sign
    obtain rfl := (List.cons.inj same).2
    simp [whole, takeFraction_of_ends ends, takeExponent_of_ends ends]
  · rename_i other
    exact absurd rfl (other _)

theorem readNumber_positive {s digits rest : List Char} (unsigned : ∀ after, s ≠ '-' :: after)
    (whole : takeWhole s = some (digits, rest)) (ends : EndsNumeral rest) :
    readNumber s = some (.int (digitsValue digits), rest) := by
  unfold readNumber
  split
  rename_i negative after sign
  split at sign
  · exact absurd rfl (unsigned _)
  · obtain ⟨rfl, rfl⟩ := Prod.mk.inj sign
    simp [whole, takeFraction_of_ends ends, takeExponent_of_ends ends]

theorem readNumber_integer (n : Int) {rest : List Char} (ends : EndsNumeral rest) :
    readNumber (integer n ++ rest) = some (.int n, rest) := by
  have whole := takeWhole_toDigits n.natAbs ends
  have value : digitsValue (Nat.toDigits 10 n.natAbs) = n.natAbs := Nat.ofDigitChars_ten_toDigits
  unfold integer
  split
  · rename_i negative
    rw [List.cons_append, readNumber_negative whole ends, value]
    congr
    omega
  · rename_i positive
    have unsigned : ∀ after, Nat.toDigits 10 n.natAbs ++ rest ≠ '-' :: after := by
      obtain ⟨c, digits, shown, digit, _⟩ := toDigits_first n.natAbs
      intro after starts
      rw [shown] at starts
      rw [(List.cons.inj starts).1] at digit
      cases digit
    rw [readNumber_positive unsigned whole ends, value]
    congr
    omega

theorem integer_first (n : Int) :
    ∃ c after, integer n = c :: after ∧ (c.isDigit = true ∨ c = '-') := by
  unfold integer
  split
  · exact ⟨_, _, rfl, .inr rfl⟩
  · obtain ⟨c, after, shown, digit, _⟩ := toDigits_first n.natAbs
    exact ⟨c, after, shown, .inl digit⟩

theorem ne_of_numeral {c d : Char} (first : c.isDigit = true ∨ c = '-') (digit : d.isDigit = false)
    (minus : d ≠ '-') : c ≠ d := by
  rintro rfl
  rcases first with first | first
  · rw [digit] at first
    cases first
  · exact minus first

theorem isSpace_of_numeral {c : Char} (first : c.isDigit = true ∨ c = '-') : isSpace c = false := by
  simp only [isSpace, Bool.or_eq_false_iff, decide_eq_false_iff_not]
  exact ⟨⟨⟨ne_of_numeral first rfl (by decide), ne_of_numeral first rfl (by decide)⟩,
    ne_of_numeral first rfl (by decide)⟩, ne_of_numeral first rfl (by decide)⟩

/-! ## Texts -/

/-- One character more, before what was read after it. -/
def prepend (c : Char) (read : List Nat × List Char) : List Nat × List Char :=
  (c.toNat :: read.1, read.2)

theorem readUnits_letter {letter c : Char} (known : unescape letter = some c) (rest : List Char) :
    readUnits ('\\' :: letter :: rest) = (readUnits rest).map (prepend c) := by
  rw [readUnits.eq_def]
  split
  · rename_i same
    cases same
  · rename_i same
    cases same
  · rename_i same
    cases same
    cases known
  · rename_i same
    cases same
    rw [known]
    cases readUnits rest <;> rfl
  · rename_i other same
    cases same
    exact (other _ _ rfl rfl).elim

theorem readUnits_quad {a b c d : Char} {unit : Char} (known : hexQuad a b c d = some unit.toNat)
    (rest : List Char) :
    readUnits ('\\' :: 'u' :: a :: b :: c :: d :: rest) = (readUnits rest).map (prepend unit) := by
  rw [readUnits, known]
  cases readUnits rest <;> rfl

theorem readUnits_raw {c : Char} (quote : c ≠ '"') (backslash : c ≠ '\\') (printed : ¬ c.toNat < 32)
    (rest : List Char) : readUnits (c :: rest) = (readUnits rest).map (prepend c) := by
  rw [readUnits.eq_def]
  split
  · rename_i same
    cases same
  · rename_i same
    cases same
    exact absurd rfl quote
  · rename_i same
    cases same
    exact absurd rfl backslash
  · rename_i same
    cases same
    exact absurd rfl backslash
  · rename_i same
    cases same
    simp only [printed, backslash, decide_false, Bool.or_self, Bool.false_eq_true, if_false]
    cases readUnits rest <;> rfl

theorem hex_control : ∀ n < 32,
    Text.hex 4 n = (List.range 4).map ((Text.hex 4 n).getD · '0') ∧
      hexQuad ((Text.hex 4 n).getD 0 '0') ((Text.hex 4 n).getD 1 '0') ((Text.hex 4 n).getD 2 '0')
        ((Text.hex 4 n).getD 3 '0') = some n := by
  decide

/-- A character is written after a backslash, by a letter or by its code, or stands for itself. -/
theorem escape_cases (c : Char) :
    (∃ letter, escape c = ['\\', letter] ∧ unescape letter = some c) ∨
      (escape c = '\\' :: 'u' :: Text.hex 4 c.toNat ∧ c.toNat < 32) ∨
      (escape c = [c] ∧ c ≠ '"' ∧ c ≠ '\\' ∧ ¬ c.toNat < 32) := by
  unfold escape
  split_ifs with quote backslash line back tab backspace feed control
  · exact .inl ⟨'"', rfl, by rw [quote]; rfl⟩
  · exact .inl ⟨'\\', rfl, by rw [backslash]; rfl⟩
  · exact .inl ⟨'n', rfl, by rw [line]; rfl⟩
  · exact .inl ⟨'r', rfl, by rw [back]; rfl⟩
  · exact .inl ⟨'t', rfl, by rw [tab]; rfl⟩
  · obtain rfl : c = '\x08' := Char.toNat_inj.mp backspace
    exact .inl ⟨'b', rfl, rfl⟩
  · obtain rfl : c = '\x0c' := Char.toNat_inj.mp feed
    exact .inl ⟨'f', rfl, rfl⟩
  · exact .inr (.inl ⟨rfl, control⟩)
  · exact .inr (.inr ⟨rfl, quote, backslash, control⟩)

/-- Every character is read as itself, however it is written. -/
theorem readUnits_escape (c : Char) (rest : List Char) :
    readUnits (escape c ++ rest) = (readUnits rest).map (prepend c) := by
  obtain ⟨letter, written, known⟩ | ⟨written, control⟩ | ⟨written, quote, backslash, printed⟩ :=
    escape_cases c
  · rw [written]
    exact readUnits_letter known rest
  · obtain ⟨four, value⟩ := hex_control c.toNat control
    rw [written, four]
    exact readUnits_quad value rest
  · rw [written]
    exact readUnits_raw quote backslash printed rest

theorem readUnits_escaped (chars rest : List Char) :
    readUnits (chars.flatMap escape ++ '"' :: rest) = some (chars.map Char.toNat, rest) := by
  induction chars with
  | nil => rfl
  | cons c more ih =>
    rw [List.flatMap_cons, List.append_assoc, readUnits_escape, ih]
    rfl

theorem not_half (c : Char) : isHighHalf c.toNat = false ∧ isLowHalf c.toNat = false := by
  have valid : c.toNat.isValidChar := c.valid
  unfold Nat.isValidChar at valid
  simp only [isHighHalf, isLowHalf, Bool.and_eq_false_iff, decide_eq_false_iff_not]
  omega

theorem joinHalves_chars (chars : List Char) : joinHalves (chars.map Char.toNat) = some chars := by
  induction chars with
  | nil => rfl
  | cons c rest ih =>
    obtain ⟨high, low⟩ := not_half c
    cases rest with
    | nil => simp [joinHalves, high, low]
    | cons d more =>
      rw [List.map_cons] at ih
      rw [List.map_cons, List.map_cons, joinHalves, ih]
      simp [high, low]

theorem readText_escaped (s : String) (rest : List Char) :
    readText (s.toList.flatMap escape ++ '"' :: rest) = some (s, rest) := by
  rw [readText, readUnits_escaped]
  simp [joinHalves_chars]

theorem readText_quote (s : String) (rest : List Char) :
    ∃ text, quote s ++ rest = '"' :: text ∧ readText text = some (s, rest) := by
  refine ⟨s.toList.flatMap escape ++ '"' :: rest, ?_, readText_escaped s rest⟩
  simp [quote]

/-! ## Space -/

theorem skipSpace_newline (depth : Nat) (s : List Char) : skipSpace (newline depth ++ s) = skipSpace s := by
  have blank : ∀ c ∈ newline depth, isSpace c = true := by
    intro c member
    rcases List.mem_cons.mp member with rfl | later
    · rfl
    · rw [(List.mem_replicate.mp later).2]
      rfl
  rw [skipSpace, List.dropWhile_append_of_pos blank, skipSpace]

theorem skipSpace_blank (s : List Char) : skipSpace (' ' :: s) = skipSpace s := rfl

theorem skipSpace_cons {c : Char} (visible : isSpace c = false) (s : List Char) :
    skipSpace (c :: s) = c :: s := by
  rw [skipSpace, List.dropWhile_cons_of_neg (by simp [visible])]

theorem readValue_space {s t : List Char} (same : skipSpace s = skipSpace t) (fuel : Nat) :
    readValue fuel s = readValue fuel t := by
  cases fuel with
  | zero => rw [readValue, readValue]
  | succ fuel => rw [readValue, readValue, same]

theorem readEntries_space {s t : List Char} (same : skipSpace s = skipSpace t) (fuel : Nat) :
    readEntries fuel s = readEntries fuel t := by
  cases fuel with
  | zero => rw [readEntries, readEntries]
  | succ fuel => rw [readEntries, readEntries, same]

end LexicalScope.Json
