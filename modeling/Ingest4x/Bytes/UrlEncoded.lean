import Ingest4x.Bytes.Layout

/-! # The `application/x-www-form-urlencoded` format

Reading a query string or a form body: pieces between ampersands, a name and a value around the first
equals sign of a piece, and percent decoding to text.

* **`decodeLossy`** — UTF-8 decoding where every malformed part becomes a replacement character.
* **`percentDecode`** — the bytes behind `%XX`.
* **`parse`** — the pairs of a text, with **`pieces`** and **`decodePair`** as its two steps.
* **`eq_of_filter_eq`** — a list is its elements that fail a test, and those that pass it with their
  places. -/

namespace UrlEncoded

open Bytes

/-! ### Text -/

/-- A character that is not complete: how many bytes it still needs, the code of its bytes so far,
and the bounds of the next byte. -/
structure Pending where
  needed : Nat
  code : Nat
  lower : Nat
  upper : Nat

/-- The replacement character. -/
def replacement : Char := '\uFFFD'

/-- What a byte begins: a whole character, or one that needs more bytes. -/
def beginChar (b : Nat) : List Char × Option Pending :=
  if b < 0x80 then ([Char.ofNat b], none)
  else if 0xC2 ≤ b ∧ b ≤ 0xDF then ([], some ⟨1, b - 0xC0, 0x80, 0xBF⟩)
  else if 0xE0 ≤ b ∧ b ≤ 0xEF then
    ([], some ⟨2, b - 0xE0, if b = 0xE0 then 0xA0 else 0x80, if b = 0xED then 0x9F else 0xBF⟩)
  else if 0xF0 ≤ b ∧ b ≤ 0xF4 then
    ([], some ⟨3, b - 0xF0, if b = 0xF0 then 0x90 else 0x80, if b = 0xF4 then 0x8F else 0xBF⟩)
  else ([replacement], none)

/-- The characters of the bytes behind a character that is not complete. -/
def decodeLossyFrom : Option Pending → List UInt8 → List Char
  | none, [] => []
  | some _, [] => [replacement]
  | none, b :: bs =>
    let begun := beginChar b.toNat
    begun.1 ++ decodeLossyFrom begun.2 bs
  | some pending, b :: bs =>
    if pending.lower ≤ b.toNat ∧ b.toNat ≤ pending.upper then
      let code := pending.code * 64 + (b.toNat - 0x80)
      if pending.needed = 1 then Char.ofNat code :: decodeLossyFrom none bs
      else decodeLossyFrom (some ⟨pending.needed - 1, code, 0x80, 0xBF⟩) bs
    else
      -- the character breaks off, and the byte begins the next one
      let begun := beginChar b.toNat
      replacement :: begun.1 ++ decodeLossyFrom begun.2 bs

/-- **`String::from_utf8_lossy`.** -/
def decodeLossy (bs : List UInt8) : String := String.ofList (decodeLossyFrom none bs)

example : decodeLossy [0x61, 0xC3, 0xA9, 0xE2, 0x82, 0x62] = "aé\uFFFDb" := by decide +kernel

/-! ### Percent decoding -/

/-- The value of a hexadecimal digit. -/
def hexValue (b : UInt8) : Option Nat :=
  let n := b.toNat
  if 0x30 ≤ n ∧ n ≤ 0x39 then some (n - 0x30)
  else if 0x41 ≤ n ∧ n ≤ 0x46 then some (n - 0x41 + 10)
  else if 0x61 ≤ n ∧ n ≤ 0x66 then some (n - 0x61 + 10)
  else none

/-- **Percent decoding**: a percent sign without two hexadecimal digits stands for itself. -/
def percentDecode : List UInt8 → List UInt8
  | [] => []
  | [b] => [b]
  | [b, b'] => [b, b']
  | b :: high :: low :: bs =>
    match if b = 0x25 then (hexValue high).bind fun h => (hexValue low).map (h * 16 + ·)
      else none with
    | some n => UInt8.ofNat n :: percentDecode bs
    | none => b :: percentDecode (high :: low :: bs)

/-- A plus sign stands for a space. -/
def replacePlus (bs : List UInt8) : List UInt8 := bs.map fun b => if b = 0x2B then 0x20 else b

/-- The text of a name or a value. -/
def decode (bs : List UInt8) : String := decodeLossy (percentDecode (replacePlus bs))

/-! ### Pairs -/

/-- The pieces between ampersands. -/
def pieces (bs : List UInt8) : List (List UInt8) := bs.splitOn 0x26

/-- The name and the value of a piece, around its first equals sign. -/
def decodePair (piece : List UInt8) : String × String :=
  (decode (piece.takeWhile (· ≠ 0x3D)), decode ((piece.dropWhile (· ≠ 0x3D)).drop 1))

/-- **`form_urlencoded::parse`**: the pairs of a text; empty pieces are left out. -/
def parse (bs : List UInt8) : List (String × String) :=
  ((pieces bs).filter (· ≠ [])).map decodePair

example : parse (utf8Bytes "a=1&&x%2Dy=p+q&=z&b") =
    [("a", "1"), ("x-y", "p q"), ("", "z"), ("b", "")] := by decide +kernel

/-- The pieces determine the text. -/
theorem eq_of_pieces_eq {bs bs' : List UInt8} (h : pieces bs = pieces bs') : bs = bs' := by
  have hjoin := congrArg ([0x26] : List UInt8).intercalate h
  rwa [pieces, pieces, List.intercalate_splitOn, List.intercalate_splitOn] at hjoin

/-- A text has at least one piece. -/
theorem pieces_ne_nil (bs : List UInt8) : pieces bs ≠ [] := List.splitOn_ne_nil _ _

/-! ### Lists by a test -/

section Filter

variable {α : Type} {p : α → Bool}

theorem le_of_mem_zipIdx {l : List α} {n : Nat} {e : α × Nat} (h : e ∈ l.zipIdx n) : n ≤ e.2 :=
  (List.mem_zipIdx h).1

/-- **A list is determined** by its elements that fail a test, and those that pass it with their
places. -/
theorem eq_of_filter_eq {l l' : List α} {n : Nat}
    (hrest : l.filter (!p ·) = l'.filter (!p ·))
    (hplaced : (l.zipIdx n).filter (fun e => p e.1) = (l'.zipIdx n).filter (fun e => p e.1)) :
    l = l' := by
  induction l generalizing l' n with
  | nil =>
    cases l' with
    | nil => rfl
    | cons b l' =>
      rw [List.zipIdx_cons, List.filter_cons] at hplaced
      rw [List.filter_cons] at hrest
      cases hb : p b <;> simp [hb] at hrest hplaced
  | cons a l ih =>
    cases l' with
    | nil =>
      rw [List.zipIdx_cons, List.filter_cons] at hplaced
      rw [List.filter_cons] at hrest
      cases ha : p a <;> simp [ha] at hrest hplaced
    | cons b l' =>
      rw [List.zipIdx_cons, List.zipIdx_cons, List.filter_cons, List.filter_cons] at hplaced
      rw [List.filter_cons, List.filter_cons] at hrest
      -- an element of one list at place `n` cannot stand at a later place of the other
      have hlater : ∀ {c : α} {m : List α} {rest : List (α × Nat)},
          (m.zipIdx (n + 1)).filter (fun e => p e.1) ≠ (c, n) :: rest := fun {c m rest} heq => by
        have hmem : (c, n) ∈ (m.zipIdx (n + 1)).filter fun e => p e.1 := by
          rw [heq]
          exact List.mem_cons_self
        have := le_of_mem_zipIdx (List.mem_of_mem_filter hmem)
        simp at this
      cases ha : p a <;> cases hb : p b <;>
        simp only [ha, hb, Bool.not_true, Bool.not_false, if_true, if_false,
          Bool.false_eq_true] at hrest hplaced
      · obtain ⟨rfl, hrest'⟩ := List.cons_eq_cons.mp hrest
        rw [ih hrest' hplaced]
      · exact absurd hplaced hlater
      · exact absurd hplaced.symm hlater
      · obtain ⟨heq, hplaced'⟩ := List.cons_eq_cons.mp hplaced
        cases heq
        rw [ih hrest hplaced']

end Filter

end UrlEncoded
