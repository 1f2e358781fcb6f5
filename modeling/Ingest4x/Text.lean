import Mathlib.Data.List.Basic
import Mathlib.Data.List.DropRight
import Mathlib.Tactic.Basic

/-! # Text

The string functions of the source's language that the model uses: trimming white space and printing
numbers with leading zeros. -/

namespace Text

/-- `char::is_whitespace` (the Unicode property White_Space). -/
def isWhitespace (c : Char) : Bool :=
  let n := c.toNat
  (9 ≤ n && n ≤ 13) || n == 0x20 || n == 0x85 || n == 0xA0 || n == 0x1680 ||
    (0x2000 ≤ n && n ≤ 0x200A) || n == 0x2028 || n == 0x2029 || n == 0x202F || n == 0x205F ||
    n == 0x3000

/-- `str::trim` on the characters. -/
def trimChars (cs : List Char) : List Char :=
  ((cs.dropWhile isWhitespace).reverse.dropWhile isWhitespace).reverse

/-- **`str::trim`.** -/
def trim (s : String) : String := String.ofList (trimChars s.toList)

theorem dropWhile_isWhitespace {cs : List Char} (h : ∀ c ∈ cs, isWhitespace c = false) :
    cs.dropWhile isWhitespace = cs := by
  cases cs with
  | nil => rfl
  | cons c cs => rw [List.dropWhile_cons, h c List.mem_cons_self, if_neg (by decide)]

/-- A text without white space is not changed. -/
theorem trim_eq_self {s : String} (h : ∀ c ∈ s.toList, isWhitespace c = false) : trim s = s := by
  rw [trim, trimChars, dropWhile_isWhitespace h,
    dropWhile_isWhitespace (fun c hc => h c (List.mem_reverse.mp hc)), List.reverse_reverse,
    String.ofList_toList]

/-- The line end after a text without white space is trimmed away. -/
theorem trim_append_newline {s : String} (h : ∀ c ∈ s.toList, isWhitespace c = false) :
    trim (s ++ "\n") = s := by
  have hfront : (s.toList ++ ['\n']).dropWhile isWhitespace = s.toList ++ ['\n'] ∨ s = "" := by
    cases hs : s.toList with
    | nil => exact Or.inr (String.toList_eq_nil_iff.mp hs)
    | cons c cs =>
      refine Or.inl ?_
      rw [List.cons_append, List.dropWhile_cons, h c (by rw [hs]; exact List.mem_cons_self),
        if_neg (by decide)]
  rcases hfront with hfront | rfl
  · rw [trim, String.toList_append, show ("\n" : String).toList = ['\n'] from rfl, trimChars, hfront,
      List.reverse_append, List.reverse_singleton, List.singleton_append, List.dropWhile_cons,
      show isWhitespace '\n' = true from rfl, if_pos rfl,
      dropWhile_isWhitespace (fun c hc => h c (List.mem_reverse.mp hc)), List.reverse_reverse,
      String.ofList_toList]
  · rfl

/-- What is left has no white space at its start. -/
theorem dropWhile_trimChars (cs : List Char) :
    (trimChars cs).dropWhile isWhitespace = trimChars cs := by
  have hfront : (cs.dropWhile isWhitespace).dropWhile isWhitespace = cs.dropWhile isWhitespace :=
    List.dropWhile_idempotent _ _
  unfold trimChars
  generalize cs.dropWhile isWhitespace = rest at hfront ⊢
  -- the first character stays, unless nothing is left
  cases hrest : rest with
  | nil => rfl
  | cons c tail =>
    have hc : isWhitespace c = false := by
      by_contra hspace
      rw [Bool.not_eq_false] at hspace
      rw [hrest, List.dropWhile_cons, if_pos hspace] at hfront
      have hlength := congrArg List.length hfront
      have hle := (List.dropWhile_sublist (l := tail) isWhitespace).length_le
      rw [List.length_cons] at hlength
      omega
    rw [List.reverse_cons, List.dropWhile_append]
    split
    · simp [hc]
    · simp [hc]

/-- Trimming once is enough. -/
theorem trim_trim (s : String) : trim (trim s) = trim s := by
  have hback : ∀ cs : List Char, (cs.reverse.dropWhile isWhitespace).dropWhile isWhitespace
      = cs.reverse.dropWhile isWhitespace := fun _ => List.dropWhile_idempotent _ _
  unfold trim
  rw [String.toList_ofList]
  congr 1
  rw [trimChars, dropWhile_trimChars, trimChars, List.reverse_reverse, hback]

/-- `str::trim_matches` with a character. -/
def trimMatches (c : Char) (s : String) : String :=
  String.ofList (((s.toList.dropWhile (· = c)).reverse.dropWhile (· = c)).reverse)

/-- `str::rsplit_once`: the texts around the last of the characters. -/
def rsplitOnce (c : Char) (s : String) : Option (String × String) :=
  match s.toList.reverse.dropWhile (· ≠ c) with
  | [] => none
  | _ :: front => some (String.ofList front.reverse,
      String.ofList (s.toList.reverse.takeWhile (· ≠ c)).reverse)

example : rsplitOnce '/' "a/b/c" = some ("a/b", "c") := by decide +kernel

/-- `char::is_ascii_alphanumeric`. -/
def isAsciiAlphanumeric (c : Char) : Bool :=
  ('0' ≤ c && c ≤ '9') || ('a' ≤ c && c ≤ 'z') || ('A' ≤ c && c ≤ 'Z')

/-- `char::is_ascii_alphabetic`. -/
def isAsciiAlphabetic (c : Char) : Bool := ('a' ≤ c && c ≤ 'z') || ('A' ≤ c && c ≤ 'Z')

/-- `format!("{n:0width$}")`: a number in decimal with at least `width` digits. -/
def zeroPad (width n : Nat) : String :=
  let digits := Nat.toDigits 10 n
  String.ofList (List.replicate (width - digits.length) '0' ++ digits)

example : zeroPad 16 42 = "0000000000000042" := by decide +kernel

theorem toList_zeroPad (width n : Nat) : (zeroPad width n).toList =
    List.replicate (width - (Nat.toDigits 10 n).length) '0' ++ Nat.toDigits 10 n := by
  rw [zeroPad, String.toList_ofList]

/-- A printed number has only digits. -/
theorem isDigit_of_mem_zeroPad {width n : Nat} {c : Char} (h : c ∈ (zeroPad width n).toList) :
    c.isDigit = true := by
  rw [toList_zeroPad, List.mem_append] at h
  rcases h with h | h
  · rw [List.eq_of_mem_replicate h]
    decide
  · exact Nat.isDigit_of_mem_toDigits (by omega) (by omega) h

theorem zeroPad_ne_nil (width n : Nat) : (zeroPad width n).toList ≠ [] := by
  rw [toList_zeroPad]
  simp [Nat.toDigits_ne_nil]

/-- **The digits stand for the number.** -/
theorem ofDigitChars_zeroPad (width n : Nat) :
    Nat.ofDigitChars 10 (zeroPad width n).toList 0 = n := by
  rw [toList_zeroPad, Nat.ofDigitChars_append, Nat.ofDigitChars_replicate_zero, Nat.mul_zero,
    Nat.ofDigitChars_toDigits (by omega) (by omega)]

/-- Two numbers are not printed alike. -/
theorem zeroPad_injective (width : Nat) : Function.Injective (zeroPad width) := by
  intro n m h
  rw [← ofDigitChars_zeroPad width n, h, ofDigitChars_zeroPad]

/-! ### Texts without a character at the ends -/

/-- **The character is at neither end.** -/
structure TrimmedOf (c : Char) (s : String) : Prop where
  head : ∀ d ∈ s.toList.head?, d ≠ c
  last : ∀ d ∈ s.toList.getLast?, d ≠ c

theorem trimMatches_eq_self {c : Char} {s : String} (h : TrimmedOf c s) : trimMatches c s = s := by
  have hhead : s.toList.dropWhile (· = c) = s.toList := by
    cases hs : s.toList with
    | nil => rfl
    | cons d cs => exact List.dropWhile_cons_of_neg (by simpa using h.head d (by simp [hs]))
  have hlast : s.toList.rdropWhile (· = c) = s.toList := by
    rw [List.rdropWhile_eq_self_iff]
    intro hne
    simpa using h.last _ (List.getLast?_eq_some_getLast hne)
  rw [trimMatches, hhead]
  exact (congrArg String.ofList hlast).trans (String.ofList_toList ..)

theorem trimmedOf_trimMatches (c : Char) (s : String) : TrimmedOf c (trimMatches c s) := by
  have htrim : (trimMatches c s).toList = (s.toList.dropWhile (· = c)).rdropWhile (· = c) := by
    rw [trimMatches, String.toList_ofList]
    rfl
  refine ⟨fun d hd => ?_, fun d hd => ?_⟩
  · rw [htrim] at hd
    obtain ⟨rest, hrest⟩ := List.rdropWhile_prefix (· = c) (s.toList.dropWhile (· = c))
    have hfirst : (s.toList.dropWhile (· = c)).head? = some d := by
      rw [← hrest, List.head?_append, hd, Option.some_or]
    have hnot := List.head?_dropWhile_not (· = c) s.toList
    simpa [hfirst] using hnot
  · rw [htrim] at hd
    have hne : (s.toList.dropWhile (· = c)).rdropWhile (· = c) ≠ [] := by
      rintro heq
      simp [heq] at hd
    have hnot := List.rdropWhile_last_not (· = c) _ hne
    have hlast : List.getLast _ hne = d :=
      Option.some.inj ((List.getLast?_eq_some_getLast hne).symm.trans hd)
    simpa [hlast] using hnot

theorem trimMatches_trimMatches (c : Char) (s : String) :
    trimMatches c (trimMatches c s) = trimMatches c s :=
  trimMatches_eq_self (trimmedOf_trimMatches c s)

end Text
