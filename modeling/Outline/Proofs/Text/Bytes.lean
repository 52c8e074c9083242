import Mathlib.Data.List.Basic

/-! # The bytes of a text

Texts are compared by their bytes. For texts of ASCII characters, which have one byte each, this is
the order of the characters' codes.
-/
namespace Outline
set_option autoImplicit false

def bytes (s : String) : List UInt8 := s.toByteArray.data.toList

/-- The order of two texts is that of the first bytes in which they differ, and a text comes before
all the texts that go on behind it. -/
def byteOrder (s t : String) : Ordering := compare (bytes s) (bytes t)

def IsAscii (text : List Char) : Prop := ∀ c ∈ text, c.utf8Size = 1

theorem isAscii_append {s t : List Char} (hs : IsAscii s) (ht : IsAscii t) : IsAscii (s ++ t) :=
  List.forall_mem_append.mpr ⟨hs, ht⟩

theorem isAscii_cons {c : Char} {s : List Char} (hc : c.utf8Size = 1) (hs : IsAscii s) :
    IsAscii (c :: s) :=
  List.forall_mem_cons.mpr ⟨hc, hs⟩

theorem isAscii_of_isDigit {text : List Char} (h : ∀ c ∈ text, c.isDigit = true) : IsAscii text := by
  intro c hc
  have hBounds := Char.isDigit_iff_toNat.mp (h c hc)
  rw [Char.utf8Size_eq_one_iff, UInt32.le_iff_toNat_le]
  exact Nat.le_trans hBounds.2 (by decide)

theorem bytes_eq {s : String} (h : IsAscii s.toList) :
    bytes s = s.toList.map fun c => c.val.toUInt8 := by
  have hBytes : s.toByteArray = s.toList.utf8Encode := by
    rw [← String.toByteArray_ofList, String.ofList_toList]
  rw [bytes, hBytes, List.utf8Encode, List.toList_data_toByteArray, List.map_eq_flatMap]
  apply List.flatMap_congr
  intro c hc
  exact String.utf8EncodeChar_eq_singleton (h c hc)

theorem utf8ByteSize_eq {text : List Char} (h : IsAscii text) :
    (String.ofList text).utf8ByteSize = text.length := by
  have hBytes := bytes_eq (s := String.ofList text) (by rwa [String.toList_ofList])
  have hLength := congrArg List.length hBytes
  rwa [String.toList_ofList, List.length_map, bytes, Array.length_toList] at hLength

theorem toNat_toUInt8 {c : Char} (h : c.utf8Size = 1) : c.val.toUInt8.toNat = c.toNat := by
  have hSmall := UInt32.le_iff_toNat_le.mp (Char.utf8Size_eq_one_iff.mp h)
  rw [UInt32.toNat_toUInt8, Char.toNat_val]
  rw [Char.toNat_val] at hSmall
  exact Nat.mod_eq_of_lt (Nat.lt_of_le_of_lt hSmall (by decide))

def codes (text : List Char) : List Nat := text.map Char.toNat

@[simp] theorem codes_append (s t : List Char) : codes (s ++ t) = codes s ++ codes t :=
  List.map_append

@[simp] theorem codes_cons (c : Char) (s : List Char) : codes (c :: s) = c.toNat :: codes s := rfl

theorem byteOrder_eq {s t : String} (hs : IsAscii s.toList) (ht : IsAscii t.toList) :
    byteOrder s t = compare (codes s.toList) (codes t.toList) := by
  rw [byteOrder, bytes_eq hs, bytes_eq ht, codes, codes]
  generalize s.toList = u at hs
  generalize t.toList = v at ht
  induction u generalizing v with
  | nil => cases v <;> rfl
  | cons c u ih =>
    cases v with
    | nil => rfl
    | cons d v =>
      obtain ⟨hc, hu⟩ := List.forall_mem_cons.mp hs
      obtain ⟨hd, hv⟩ := List.forall_mem_cons.mp ht
      rw [List.map_cons, List.map_cons, List.map_cons, List.map_cons, List.compare_cons_cons,
        List.compare_cons_cons, UInt8.compare_eq_toNat_compare_toNat, toNat_toUInt8 hc,
        toNat_toUInt8 hd, ih hu v hv]

theorem compare_append {s t : List Nat} (h : s.length = t.length) (u v : List Nat) :
    compare (s ++ u) (t ++ v) = (compare s t).then (compare u v) := by
  induction s generalizing t with
  | nil =>
    obtain rfl := List.length_eq_zero_iff.mp h.symm
    rfl
  | cons a s ih =>
    cases t with
    | nil => cases h
    | cons b t =>
      rw [List.cons_append, List.cons_append, List.compare_cons_cons, List.compare_cons_cons,
        ih (Nat.succ.inj h), Ordering.then_assoc]

theorem compare_cons_self (a : Nat) (s t : List Nat) : compare (a :: s) (a :: t) = compare s t := by
  rw [List.compare_cons_cons, Nat.compare_eq_eq.mpr rfl, Ordering.eq_then]

end Outline
