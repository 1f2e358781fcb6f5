import Ingest4x.Bytes.Layout

/-! # Self-delimiting wire formats

A wire format writes a value as bytes and reads it back from the front of any stream. Formats
compose: pairs by juxtaposition, lists by a marker before each element, other types through a
conversion.

* **`Wire`** — a writer, a reader and their round trip.
* **`Wire.pair`**, **`Wire.list`**, **`Wire.option`**, **`Wire.conv`** — composition.
* **`Wire.parse`** — read a whole byte list as one value. -/

namespace Bytes

/-- **A wire format**: the reader takes exactly what the writer wrote off the front of a stream. -/
structure Wire (α : Type) where
  encode : α → List UInt8
  decode : List UInt8 → Option (α × List UInt8)
  decode_encode : ∀ a rest, decode (encode a ++ rest) = some (a, rest)

variable {α β : Type}

namespace Wire

/-- One byte. -/
def byte : Wire UInt8 where
  encode b := [b]
  decode
    | [] => none
    | b :: rest => some (b, rest)
  decode_encode _ _ := rfl

/-- A fixed-width 64-bit word. -/
def u64 : Wire UInt64 where
  encode := u64Bytes
  decode bs := (readExact 8 bs).map fun (field, rest) => (u64OfBytes field, rest)
  decode_encode n rest := by
    rw [readExact_append (length_u64Bytes n), Option.map_some]
    simp only [u64OfBytes_u64Bytes]

/-- Two values, one after the other. -/
def pair (first : Wire α) (second : Wire β) : Wire (α × β) where
  encode p := first.encode p.1 ++ second.encode p.2
  decode bs :=
    match first.decode bs with
    | none => none
    | some (a, rest) => (second.decode rest).map fun (b, rest) => ((a, b), rest)
  decode_encode p rest := by
    rw [List.append_assoc, first.decode_encode]
    simp only [second.decode_encode, Option.map_some]

/-- Another type, through a conversion that can be undone. -/
def conv (wire : Wire α) (unpack : β → α) (pack : α → Option β)
    (h : ∀ b, pack (unpack b) = some b) : Wire β where
  encode b := wire.encode (unpack b)
  decode bs :=
    match wire.decode bs with
    | none => none
    | some (a, rest) => (pack a).map fun b => (b, rest)
  decode_encode b rest := by
    rw [wire.decode_encode]
    simp only [h, Option.map_some]

/-- Write a list: a marker `1` before each element and `0` at the end. -/
def encodeList (wire : Wire α) : List α → List UInt8
  | [] => [0]
  | a :: as => 1 :: (wire.encode a ++ encodeList wire as)

/-- Read a marked list; each element takes at least its marker, so the length of the stream is
enough fuel. -/
def decodeList (wire : Wire α) : Nat → List UInt8 → Option (List α × List UInt8)
  | 0, _ => none
  | _ + 1, [] => none
  | fuel + 1, marker :: rest =>
    if marker = 0 then some ([], rest)
    else
      match wire.decode rest with
      | none => none
      | some (a, rest) => (decodeList wire fuel rest).map fun (as, rest) => (a :: as, rest)

theorem decodeList_encodeList (wire : Wire α) (as : List α) (rest : List UInt8) {fuel : Nat}
    (h : as.length < fuel) : decodeList wire fuel (encodeList wire as ++ rest) = some (as, rest) := by
  induction as generalizing fuel with
  | nil =>
    obtain ⟨fuel, rfl⟩ := Nat.exists_eq_succ_of_ne_zero (Nat.ne_zero_of_lt h)
    rfl
  | cons a as ih =>
    obtain ⟨fuel, rfl⟩ := Nat.exists_eq_succ_of_ne_zero (Nat.ne_zero_of_lt h)
    rw [encodeList, List.cons_append, decodeList, if_neg (by decide), List.append_assoc,
      wire.decode_encode]
    simp only [ih (Nat.lt_of_succ_lt_succ h), Option.map_some]

theorem length_le_length_encodeList (wire : Wire α) (as : List α) :
    as.length < (encodeList wire as).length := by
  induction as with
  | nil => exact Nat.zero_lt_one
  | cons a as ih =>
    simp only [encodeList, List.length_cons, List.length_append]
    omega

/-- A list of values. -/
def list (wire : Wire α) : Wire (List α) where
  encode := encodeList wire
  decode bs := decodeList wire (bs.length + 1) bs
  decode_encode as rest := decodeList_encodeList wire as rest (by
    have := length_le_length_encodeList wire as
    rw [List.length_append]
    omega)

/-- An optional value, as a list of at most one element. -/
def option (wire : Wire α) : Wire (Option α) :=
  wire.list.conv Option.toList
    (fun
      | [] => some none
      | [a] => some (some a)
      | _ => none)
    (by rintro (_ | a) <;> rfl)

/-- A string, as the list of its UTF-8 bytes. -/
def string : Wire String :=
  byte.list.conv utf8Bytes utf8OfBytes utf8OfBytes_utf8Bytes

/-- The base-256 digits of a number, the lowest first; the number itself is enough fuel. -/
def digits : Nat → Nat → List UInt8
  | 0, _ => []
  | fuel + 1, n => if n = 0 then [] else UInt8.ofNat (n % 256) :: digits fuel (n / 256)

/-- The number with these digits. -/
def ofDigits (bs : List UInt8) : Nat := bs.foldr (fun b n => b.toNat + 256 * n) 0

theorem ofDigits_digits {fuel n : Nat} (h : n ≤ fuel) : ofDigits (digits fuel n) = n := by
  induction fuel generalizing n with
  | zero =>
    rw [Nat.le_zero.mp h]
    rfl
  | succ fuel ih =>
    rw [digits]
    split_ifs with hn
    · rw [hn]
      rfl
    · have hrest : ofDigits (digits fuel (n / 256)) = n / 256 := ih (by omega)
      show (UInt8.ofNat (n % 256)).toNat + 256 * ofDigits (digits fuel (n / 256)) = n
      rw [hrest, UInt8.toNat_ofNat']
      omega

/-- A natural number, as the list of its digits. -/
def nat : Wire Nat :=
  byte.list.conv (fun n => digits n n) (fun bs => some (ofDigits bs))
    fun _ => congrArg some (ofDigits_digits le_rfl)

/-- Read a whole byte list as one value. -/
def parse (wire : Wire α) (bs : List UInt8) : Option α :=
  match wire.decode bs with
  | some (a, []) => some a
  | _ => none

/-- Reading what was written gives the value. -/
@[simp] theorem parse_encode (wire : Wire α) (a : α) : wire.parse (wire.encode a) = some a := by
  have h := wire.decode_encode a []
  rw [List.append_nil] at h
  rw [parse, h]

end Wire

end Bytes
