import Mathlib.Algebra.Ring.Int.Defs
import Mathlib.Data.List.DropRight

/-! # Numbers in lines of text

Signed 64-bit numbers in decimal, one a line, as Go's `strconv` writes and reads them. Lines
that hold no number are passed over; what is written reads back as it is.
-/

namespace PilotProtocol.Library

def isSpace (c : Char) : Bool :=
  (9 ≤ c.toNat && c.toNat ≤ 13) || (0x2000 ≤ c.toNat && c.toNat ≤ 0x200a) ||
    [0x20, 0x85, 0xa0, 0x1680, 0x2028, 0x2029, 0x202f, 0x205f, 0x3000].contains c.toNat

def trimSpace (text : List Char) : List Char := (text.dropWhile isSpace).rdropWhile isSpace

def formatInt (n : Int) : List Char :=
  if n < 0 then '-' :: Nat.toDigits 10 n.natAbs else Nat.toDigits 10 n.natAbs

def parseDigits (negative : Bool) (digits : List Char) : Option Int :=
  if digits = [] ∨ digits.any (!·.isDigit) then none
  else
    let n : Int := Nat.ofDigitChars 10 digits 0
    let value := if negative then -n else n
    if -2 ^ 63 ≤ value ∧ value < 2 ^ 63 then some value else none

/-- `strconv.ParseInt` in base 10 and with 64 bits. -/
def parseInt : List Char → Option Int
  | '-' :: digits => parseDigits true digits
  | '+' :: digits => parseDigits false digits
  | digits => parseDigits false digits

def writeLines (numbers : List Int) : List Char := numbers.flatMap fun n => formatInt n ++ ['\n']

def readLines (text : List Char) : List Int :=
  ((trimSpace text).splitOn '\n').filterMap fun line => parseInt (trimSpace line)

/-! ## One number -/

variable {c : Char} {n : Int} {word : List Char}

theorem isDigit_of_mem {n : Nat} (h : c ∈ Nat.toDigits 10 n) : c.isDigit = true :=
  Nat.isDigit_of_mem_toDigits (by decide) (by decide) h

theorem isDigit_plain (h : c.isDigit = true) :
    isSpace c = false ∧ c ≠ '-' ∧ c ≠ '+' ∧ c ≠ '\n' := by
  have hrange : 48 ≤ c.toNat ∧ c.toNat ≤ 57 := by
    simpa [Char.isDigit, UInt32.le_iff_toNat_le] using h
  refine ⟨?_, ?_, ?_, ?_⟩
  · simp [isSpace]
    omega
  all_goals
    rintro rfl
    simp at hrange

theorem plain_of_mem_formatInt (h : c ∈ formatInt n) : isSpace c = false ∧ c ≠ '\n' := by
  have hdigit (hmem : c ∈ Nat.toDigits 10 n.natAbs) : isSpace c = false ∧ c ≠ '\n' :=
    (isDigit_plain (isDigit_of_mem hmem)).imp_right fun hplain => hplain.2.2
  unfold formatInt at h
  split at h
  · rcases List.mem_cons.mp h with rfl | hmem
    · decide
    · exact hdigit hmem
  · exact hdigit h

theorem formatInt_ne_nil (n : Int) : formatInt n ≠ [] := by
  unfold formatInt
  split
  · exact List.cons_ne_nil _ _
  · exact Nat.toDigits_ne_nil

theorem parseDigits_toDigits {negative : Bool} {n : Nat} {value : Int}
    (hvalue : (if negative then -(n : Int) else n) = value) (hrange : -2 ^ 63 ≤ value ∧ value < 2 ^ 63) :
    parseDigits negative (Nat.toDigits 10 n) = some value := by
  have hdigits : ¬ (Nat.toDigits 10 n = [] ∨ (Nat.toDigits 10 n).any (!·.isDigit) = true) := by
    rintro (hnil | hany)
    · exact Nat.toDigits_ne_nil hnil
    · obtain ⟨c, hc, hnot⟩ := List.any_eq_true.mp hany
      simp [isDigit_of_mem hc] at hnot
  unfold parseDigits
  simp only [if_neg hdigits, Nat.ofDigitChars_ten_toDigits, hvalue, if_pos hrange]

theorem parseInt_of_digit {rest : List Char} (h : c.isDigit = true) :
    parseInt (c :: rest) = parseDigits false (c :: rest) := by
  obtain ⟨-, hminus, hplus, -⟩ := isDigit_plain h
  unfold parseInt
  split
  next heq =>
    cases heq
    exact absurd rfl hminus
  next heq =>
    cases heq
    exact absurd rfl hplus
  next => rfl

theorem parseInt_formatInt (hrange : -2 ^ 63 ≤ n ∧ n < 2 ^ 63) :
    parseInt (formatInt n) = some n := by
  unfold formatInt
  split
  · exact parseDigits_toDigits (by rw [if_pos rfl]; omega) hrange
  · have hparse : parseDigits false (Nat.toDigits 10 n.natAbs) = some n :=
      parseDigits_toDigits (by rw [if_neg nofun]; omega) hrange
    cases hdigits : Nat.toDigits 10 n.natAbs with
    | nil => exact absurd hdigits Nat.toDigits_ne_nil
    | cons c rest =>
      have hdigit : c.isDigit = true := isDigit_of_mem (hdigits ▸ List.mem_cons_self)
      rwa [parseInt_of_digit hdigit, ← hdigits]

theorem parseDigits_range {negative : Bool} {digits : List Char}
    (h : parseDigits negative digits = some n) : -2 ^ 63 ≤ n ∧ n < 2 ^ 63 := by
  unfold parseDigits at h
  split at h
  · cases h
  · simp only [Option.ite_none_right_eq_some, Option.some.injEq] at h
    rw [← h.2]
    exact h.1

theorem readLines_range {text : List Char} (h : n ∈ readLines text) : -2 ^ 63 ≤ n ∧ n < 2 ^ 63 := by
  obtain ⟨line, -, hparse⟩ := List.mem_filterMap.mp h
  unfold parseInt at hparse
  split at hparse
  all_goals exact parseDigits_range hparse

/-! ## Lines -/

theorem dropWhile_plain (rest : List Char) (h : ∀ c ∈ word, isSpace c = false) (hne : word ≠ []) :
    (word ++ rest).dropWhile isSpace = word ++ rest := by
  cases word with
  | nil => exact absurd rfl hne
  | cons c tail => simp [h c (.head _)]

theorem rdropWhile_plain (text : List Char) (h : ∀ c ∈ word, isSpace c = false) (hne : word ≠ []) :
    (text ++ word).rdropWhile isSpace = text ++ word := by
  apply List.rdropWhile_eq_self_iff.mpr
  intro hnonempty
  rw [List.getLast_append_of_ne_nil hnonempty hne, h _ (List.getLast_mem hne)]
  decide

theorem trimSpace_plain (h : ∀ c ∈ word, isSpace c = false) (hne : word ≠ []) :
    trimSpace word = word := by
  have hfront : word.dropWhile isSpace = word := by simpa using dropWhile_plain [] h hne
  unfold trimSpace
  rw [hfront]
  exact rdropWhile_plain [] h hne

theorem splitOn_writeLines (numbers : List Int) (hword : '\n' ∉ word) :
    (writeLines numbers ++ word).splitOn '\n' = numbers.map formatInt ++ [word] := by
  induction numbers with
  | nil => exact List.splitOn_eq_singleton hword
  | cons n rest ih =>
    have hline : '\n' ∉ formatInt n := fun hmem => (plain_of_mem_formatInt hmem).2 rfl
    have htext : writeLines (n :: rest) ++ word = formatInt n ++ '\n' :: (writeLines rest ++ word) := by
      simp [writeLines]
    rw [htext, List.splitOn_append_cons_self_of_not_mem hline, ih]
    rfl

theorem trimSpace_writeLines (init : List Int) (last : Int) :
    trimSpace (writeLines (init ++ [last])) = writeLines init ++ formatInt last := by
  have hplain (n : Int) : ∀ c ∈ formatInt n, isSpace c = false := fun c hc =>
    (plain_of_mem_formatInt hc).1
  have htext : writeLines (init ++ [last]) = (writeLines init ++ formatInt last) ++ ['\n'] := by
    simp [writeLines]
  have hfront : (writeLines (init ++ [last])).dropWhile isSpace = writeLines (init ++ [last]) := by
    cases init with
    | nil =>
      rw [htext]
      exact dropWhile_plain _ (hplain last) (formatInt_ne_nil last)
    | cons n rest =>
      have hhead : writeLines (n :: rest ++ [last]) = formatInt n ++ '\n' :: writeLines (rest ++ [last]) := by
        simp [writeLines]
      rw [hhead]
      exact dropWhile_plain _ (hplain n) (formatInt_ne_nil n)
  unfold trimSpace
  rw [hfront, htext, List.rdropWhile_concat_pos _ _ _ (by decide)]
  exact rdropWhile_plain _ (hplain last) (formatInt_ne_nil last)

theorem readLines_writeLines {numbers : List Int} (hrange : ∀ n ∈ numbers, -2 ^ 63 ≤ n ∧ n < 2 ^ 63) :
    readLines (writeLines numbers) = numbers := by
  rcases numbers.eq_nil_or_concat' with rfl | ⟨init, last, rfl⟩
  · rfl
  · have hword : '\n' ∉ formatInt last := fun hmem => (plain_of_mem_formatInt hmem).2 rfl
    have hline : ∀ n ∈ init ++ [last], parseInt (trimSpace (formatInt n)) = some n := by
      intro n hn
      rw [trimSpace_plain (fun c hc => (plain_of_mem_formatInt hc).1) (formatInt_ne_nil n)]
      exact parseInt_formatInt (hrange n hn)
    have hlines : init.map formatInt ++ [formatInt last] = (init ++ [last]).map formatInt := by simp
    unfold readLines
    rw [trimSpace_writeLines, splitOn_writeLines init hword, hlines, List.filterMap_map]
    exact (List.filterMap_congr hline).trans List.filterMap_some

end PilotProtocol.Library
