import Mathlib.Tactic.Ring
import Mathlib.Tactic.Linarith
import Mathlib.Data.List.Basic

/-! # Byte layouts

The vocabulary of binary formats over byte lists: big-endian integers, fields at fixed offsets of a
fixed-size block, and an exact reader.

* **`beBytes` / `beNat`** — big-endian encoding of a natural number in a given width, with the fixed
  width words `u16Bytes`, `u32Bytes`, `u64Bytes` and their readers.
* **`copyAt` / `slice`** — overwrite a block from an offset, and read a range of it.
* **`writeFields`** — fill a block with fields at fixed offsets; disjoint fields read back.
* **`utf8Bytes` / `utf8OfBytes`** — the UTF-8 bytes of a string, and validated decoding.
* **`readExact`** — take exactly `n` bytes from the front of a reader, or report the end of file. -/

namespace Bytes

/-! ### Big-endian integers -/

/-- **Big-endian bytes** of `n` in `width` bytes (the value modulo `256 ^ width`). -/
def beBytes : Nat → Nat → List UInt8
  | 0, _ => []
  | width + 1, n => UInt8.ofNat (n / 256 ^ width) :: beBytes width n

/-- The number a big-endian byte list denotes. -/
def beNat (bs : List UInt8) : Nat :=
  bs.foldl (fun acc b => acc * 256 + b.toNat) 0

@[simp] theorem length_beBytes (width n : Nat) : (beBytes width n).length = width := by
  induction width with
  | zero => rfl
  | succ width ih => rw [beBytes, List.length_cons, ih]

theorem foldl_beBytes (width n acc : Nat) :
    (beBytes width n).foldl (fun acc b => acc * 256 + b.toNat) acc
      = acc * 256 ^ width + n % 256 ^ width := by
  induction width generalizing acc with
  | zero => simp [beBytes, Nat.mod_one]
  | succ width ih =>
    rw [beBytes, List.foldl_cons, ih, UInt8.toNat_ofNat']
    have hmod : n % 256 ^ (width + 1) = n / 256 ^ width % 256 * 256 ^ width + n % 256 ^ width := by
      rw [pow_succ, Nat.mod_mul]
      ring
    rw [hmod]
    ring

/-- Decoding a big-endian encoding gives the value modulo the width. -/
theorem beNat_beBytes (width n : Nat) : beNat (beBytes width n) = n % 256 ^ width := by
  rw [beNat, foldl_beBytes, zero_mul, zero_add]

/-- `u16::to_be_bytes`. -/
def u16Bytes (n : UInt16) : List UInt8 := beBytes 2 n.toNat

/-- `u32::to_be_bytes`. -/
def u32Bytes (n : UInt32) : List UInt8 := beBytes 4 n.toNat

/-- `u64::to_be_bytes`. -/
def u64Bytes (n : UInt64) : List UInt8 := beBytes 8 n.toNat

/-- `u16::from_be_bytes`. -/
def u16OfBytes (bs : List UInt8) : UInt16 := UInt16.ofNat (beNat bs)

/-- `u32::from_be_bytes`. -/
def u32OfBytes (bs : List UInt8) : UInt32 := UInt32.ofNat (beNat bs)

/-- `u64::from_be_bytes`. -/
def u64OfBytes (bs : List UInt8) : UInt64 := UInt64.ofNat (beNat bs)

@[simp] theorem length_u16Bytes (n : UInt16) : (u16Bytes n).length = 2 := length_beBytes 2 _

@[simp] theorem length_u32Bytes (n : UInt32) : (u32Bytes n).length = 4 := length_beBytes 4 _

@[simp] theorem length_u64Bytes (n : UInt64) : (u64Bytes n).length = 8 := length_beBytes 8 _

@[simp] theorem u16OfBytes_u16Bytes (n : UInt16) : u16OfBytes (u16Bytes n) = n := by
  rw [u16OfBytes, u16Bytes, beNat_beBytes, Nat.mod_eq_of_lt (show n.toNat < 256 ^ 2 from n.toNat_lt),
    UInt16.ofNat_toNat]

@[simp] theorem u32OfBytes_u32Bytes (n : UInt32) : u32OfBytes (u32Bytes n) = n := by
  rw [u32OfBytes, u32Bytes, beNat_beBytes, Nat.mod_eq_of_lt (show n.toNat < 256 ^ 4 from n.toNat_lt),
    UInt32.ofNat_toNat]

@[simp] theorem u64OfBytes_u64Bytes (n : UInt64) : u64OfBytes (u64Bytes n) = n := by
  rw [u64OfBytes, u64Bytes, beNat_beBytes, Nat.mod_eq_of_lt (show n.toNat < 256 ^ 8 from n.toNat_lt),
    UInt64.ofNat_toNat]

/-! ### Text -/

/-- The UTF-8 bytes of a string. -/
def utf8Bytes (s : String) : List UInt8 := s.toByteArray.data.toList

/-- Validated UTF-8 decoding. -/
def utf8OfBytes (bs : List UInt8) : Option String := String.fromUTF8? ⟨bs.toArray⟩

@[simp] theorem utf8OfBytes_utf8Bytes (s : String) : utf8OfBytes (utf8Bytes s) = some s := by
  rw [utf8OfBytes, utf8Bytes, Array.toArray_toList, String.fromUTF8?]
  exact dif_pos s.isValidUTF8

/-- Decoded text has the bytes it was decoded from. -/
theorem utf8Bytes_of_utf8OfBytes {bs : List UInt8} {s : String} (h : utf8OfBytes bs = some s) :
    utf8Bytes s = bs := by
  unfold utf8OfBytes String.fromUTF8? at h
  split at h
  · injection h with h
    rw [← h]
    rfl
  · cases h

/-! ### Fields of a fixed-size block -/

/-- The bytes `bs[start..stop]`. -/
def slice (start stop : Nat) (bs : List UInt8) : List UInt8 :=
  (bs.drop start).take (stop - start)

/-- Overwrite `bs` from offset `start` with `src`. -/
def copyAt (start : Nat) (src bs : List UInt8) : List UInt8 :=
  bs.take start ++ src ++ bs.drop (start + src.length)

@[simp] theorem length_slice (start stop : Nat) (bs : List UInt8) :
    (slice start stop bs).length = min (stop - start) (bs.length - start) := by
  rw [slice, List.length_take, List.length_drop]

/-- A range that starts after a prefix is a range of what follows it. -/
theorem slice_append_right {start stop : Nat} {front : List UInt8} (h : front.length ≤ start)
    (bs : List UInt8) :
    slice start stop (front ++ bs) = slice (start - front.length) (stop - front.length) bs := by
  rw [slice, slice, List.drop_append, List.drop_of_length_le h, List.nil_append]
  congr 1
  omega

/-- The range that a prefix fills is the prefix. -/
theorem slice_append_left {stop : Nat} {front : List UInt8} (h : front.length = stop)
    (bs : List UInt8) : slice 0 stop (front ++ bs) = front := by
  subst h
  rw [slice, List.drop_zero, Nat.sub_zero, List.take_left]

/-- The full range is the whole list. -/
theorem slice_full {stop : Nat} {bs : List UInt8} (h : bs.length = stop) : slice 0 stop bs = bs := by
  subst h
  rw [slice, List.drop_zero, Nat.sub_zero, List.take_length]

/-- Overwriting inside a block keeps its length. -/
theorem length_copyAt {start : Nat} {src bs : List UInt8} (h : start + src.length ≤ bs.length) :
    (copyAt start src bs).length = bs.length := by
  simp only [copyAt, List.length_append, List.length_take, List.length_drop]
  omega

theorem getElem?_slice (start stop i : Nat) (bs : List UInt8) :
    (slice start stop bs)[i]? = if i < stop - start then bs[start + i]? else none := by
  rw [slice, List.getElem?_take, List.getElem?_drop]

theorem getElem?_copyAt {start : Nat} {src bs : List UInt8} (h : start + src.length ≤ bs.length)
    (i : Nat) :
    (copyAt start src bs)[i]? =
      if i < start then bs[i]? else if i < start + src.length then src[i - start]? else bs[i]? := by
  have htake : (bs.take start).length = start := by rw [List.length_take]; omega
  rw [copyAt, List.append_assoc]
  by_cases hi : i < start
  · rw [List.getElem?_append_left (by omega), List.getElem?_take, if_pos hi, if_pos hi]
  · rw [List.getElem?_append_right (by omega), htake, if_neg hi]
    by_cases hi' : i < start + src.length
    · rw [List.getElem?_append_left (by omega), if_pos hi']
    · rw [List.getElem?_append_right (by omega), List.getElem?_drop, if_neg hi']
      congr 1
      omega

/-- The range just written holds the bytes written. -/
theorem slice_copyAt_self {start stop : Nat} {src bs : List UInt8}
    (hstop : stop = start + src.length) (h : start + src.length ≤ bs.length) :
    slice start stop (copyAt start src bs) = src := by
  apply List.ext_getElem?
  intro i
  rw [getElem?_slice, getElem?_copyAt h]
  by_cases hi : i < src.length
  · rw [if_pos (by omega), if_neg (by omega), if_pos (by omega), Nat.add_sub_cancel_left]
  · rw [if_neg (by omega), List.getElem?_eq_none (by omega)]

/-- A range apart from the bytes written is unchanged. -/
theorem slice_copyAt_of_disjoint {start a b : Nat} {src bs : List UInt8}
    (hab : b ≤ start ∨ start + src.length ≤ a) (h : start + src.length ≤ bs.length) :
    slice a b (copyAt start src bs) = slice a b bs := by
  apply List.ext_getElem?
  intro i
  rw [getElem?_slice, getElem?_slice, getElem?_copyAt h]
  by_cases hi : i < b - a
  · rw [if_pos hi, if_pos hi]
    by_cases hs : a + i < start
    · rw [if_pos hs]
    · rw [if_neg hs, if_neg (by omega)]
  · rw [if_neg hi, if_neg hi]

/-- Write a list of fields, each at its offset, into a block. -/
def writeFields (fields : List (Nat × List UInt8)) (block : List UInt8) : List UInt8 :=
  fields.foldl (fun block field => copyAt field.1 field.2 block) block

@[simp] theorem writeFields_nil (block : List UInt8) : writeFields [] block = block := rfl

@[simp] theorem writeFields_cons (field : Nat × List UInt8) (fields : List (Nat × List UInt8))
    (block : List UInt8) :
    writeFields (field :: fields) block = writeFields fields (copyAt field.1 field.2 block) := rfl

/-- Fields that lie inside the block keep its length. -/
theorem length_writeFields {fields : List (Nat × List UInt8)} {block : List UInt8}
    (h : ∀ field ∈ fields, field.1 + field.2.length ≤ block.length) :
    (writeFields fields block).length = block.length := by
  induction fields generalizing block with
  | nil => rfl
  | cons field fields ih =>
    have hlen := length_copyAt (h field List.mem_cons_self)
    rw [writeFields_cons, ih, hlen]
    intro f hf
    rw [hlen]
    exact h f (List.mem_cons_of_mem _ hf)

/-- A range apart from every field is unchanged. -/
theorem slice_writeFields_of_disjoint {fields : List (Nat × List UInt8)} {block : List UInt8}
    {a b : Nat} (h : ∀ field ∈ fields, field.1 + field.2.length ≤ block.length)
    (hab : ∀ field ∈ fields, b ≤ field.1 ∨ field.1 + field.2.length ≤ a) :
    slice a b (writeFields fields block) = slice a b block := by
  induction fields generalizing block with
  | nil => rfl
  | cons field fields ih =>
    have hin := h field List.mem_cons_self
    rw [writeFields_cons, ih, slice_copyAt_of_disjoint (hab field List.mem_cons_self) hin]
    · intro f hf
      rw [length_copyAt hin]
      exact h f (List.mem_cons_of_mem _ hf)
    · exact fun f hf => hab f (List.mem_cons_of_mem _ hf)

/-- **Fields read back.** Where the fields lie inside the block and none overlaps a later one, the
range of each field holds its bytes. -/
theorem slice_writeFields {fields : List (Nat × List UInt8)} {block : List UInt8}
    (h : ∀ field ∈ fields, field.1 + field.2.length ≤ block.length)
    (hdisjoint : fields.Pairwise fun f g => f.1 + f.2.length ≤ g.1 ∨ g.1 + g.2.length ≤ f.1)
    {start stop : Nat} {bytes : List UInt8} (hmem : (start, bytes) ∈ fields)
    (hstop : stop = start + bytes.length) : slice start stop (writeFields fields block) = bytes := by
  induction fields generalizing block with
  | nil => cases hmem
  | cons field fields ih =>
    have hin := h field List.mem_cons_self
    have hrest : ∀ f ∈ fields, f.1 + f.2.length ≤ (copyAt field.1 field.2 block).length := by
      intro f hf
      rw [length_copyAt hin]
      exact h f (List.mem_cons_of_mem _ hf)
    obtain ⟨hhead, htail⟩ := List.pairwise_cons.mp hdisjoint
    rw [writeFields_cons]
    rcases List.mem_cons.mp hmem with rfl | hmem
    · rw [slice_writeFields_of_disjoint hrest, slice_copyAt_self hstop hin]
      exact fun f hf => hstop ▸ hhead f hf
    · exact ih hrest htail hmem

/-! ### Exact reads -/

/-- **`read_exact`.** The next `n` bytes and the rest of the reader, `none` at the end of file. -/
def readExact (n : Nat) (bs : List UInt8) : Option (List UInt8 × List UInt8) :=
  if n ≤ bs.length then some (bs.take n, bs.drop n) else none

/-- Reading a field off the front of what follows it. -/
theorem readExact_append {n : Nat} {field : List UInt8} (h : field.length = n)
    (rest : List UInt8) : readExact n (field ++ rest) = some (field, rest) := by
  subst h
  rw [readExact, if_pos (by simp), List.take_left, List.drop_left]

/-- A reader with fewer bytes reports the end of file. -/
theorem readExact_eq_none {n : Nat} {bs : List UInt8} (h : bs.length < n) :
    readExact n bs = none :=
  if_neg (Nat.not_le.mpr h)

/-- Reading a field from a truncated stream: either the file ends inside the field, or the field is
there and the stream is truncated in what follows. -/
theorem readExact_truncated {n : Nat} {field rest front cut : List UInt8} (hn : field.length = n)
    (h : front ++ cut = field ++ rest) :
    readExact n front = none ∨ ∃ front', front = field ++ front' ∧ front' ++ cut = rest := by
  subst hn
  by_cases hlen : front.length < field.length
  · exact Or.inl (readExact_eq_none hlen)
  · have htake := congrArg (List.take field.length) h
    have hdrop := congrArg (List.drop field.length) h
    rw [List.take_append_of_le_length (by omega), List.take_left] at htake
    rw [List.drop_append_of_le_length (by omega), List.drop_left] at hdrop
    refine Or.inr ⟨front.drop field.length, ?_, hdrop⟩
    conv_lhs => rw [← List.take_append_drop field.length front, htake]

/-- What a successful read says about the reader. -/
theorem readExact_eq_some {n : Nat} {bs field rest : List UInt8}
    (h : readExact n bs = some (field, rest)) : bs = field ++ rest ∧ field.length = n := by
  rw [readExact] at h
  split at h
  · rename_i hn
    simp only [Option.some.injEq, Prod.mk.injEq] at h
    obtain ⟨rfl, rfl⟩ := h
    exact ⟨(List.take_append_drop n bs).symm, by rw [List.length_take]; omega⟩
  · exact absurd h (by simp)

/-- A read takes what it returns off the reader. -/
theorem length_of_readExact {n : Nat} {bs field rest : List UInt8}
    (h : readExact n bs = some (field, rest)) : bs.length = n + rest.length := by
  obtain ⟨rfl, rfl⟩ := readExact_eq_some h
  exact List.length_append

end Bytes
