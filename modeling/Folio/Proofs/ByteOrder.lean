/-
  The order of strings is the order of their bytes.

  Strings are compared character by character, by code point.  What sorts them by the bytes of their
  encoding sorts them in the same way: where two characters differ, the smaller one has the smaller
  byte at the first place where their encodings differ.

  1. **Characters** — a character is encoded by a first byte, which tells how many more there are,
     and by digits of its code point in base 64 (`continuation`).  With the same number of digits,
     the first byte and then the digits decide (`cons_continuation_lt`); otherwise the first byte
     does (`utf8EncodeChar_append_lt`).
  2. **Strings** — by induction on the characters (`bytes_lt_iff`).
-/
import Mathlib.Data.String.Basic
import Mathlib.Tactic.SplitIfs

namespace Folio

/-! ## Characters -/

/-- The lowest digits of a code point in base 64, each in a byte of its own. -/
def continuation : Nat → Nat → List UInt8
  | 0, _ => []
  | digits + 1, code =>
    UInt8.ofNat (code / 64 ^ digits % 64 + 128) :: continuation digits code

section

variable {m n v w : Nat} {s t : List UInt8}

theorem ofNat_cons_lt (hm : m < 256) (hn : n < 256) (h : m < n ∨ m = n ∧ s < t) :
    UInt8.ofNat m :: s < UInt8.ofNat n :: t := by
  rw [List.cons_lt_cons_iff, UInt8.ofNat_lt_iff_lt hm hn]
  exact h.imp_right fun ⟨heq, hlt⟩ => ⟨congrArg UInt8.ofNat heq, hlt⟩

theorem continuation_lt {digits : Nat} (h : v % 64 ^ digits < w % 64 ^ digits) :
    continuation digits v ++ s < continuation digits w ++ t := by
  induction digits with
  | zero => omega
  | succ digits ih =>
    rw [Nat.mod_pow_succ, Nat.mod_pow_succ] at h
    refine ofNat_cons_lt (by omega) (by omega) ?_
    rcases Nat.lt_trichotomy (v / 64 ^ digits % 64) (w / 64 ^ digits % 64) with hlt | heq | hgt
    · exact .inl (Nat.add_lt_add_right hlt 128)
    · rw [heq] at h
      exact .inr ⟨by rw [heq], ih (Nat.lt_of_add_lt_add_right h)⟩
    · -- A larger digit outweighs whatever follows it.
      have hdigit := Nat.mul_le_mul_left (64 ^ digits) (Nat.succ_le_of_lt hgt)
      have hrest : v % 64 ^ digits < 64 ^ digits := Nat.mod_lt _ (Nat.pow_pos (by decide))
      have hrest' : w % 64 ^ digits < 64 ^ digits := Nat.mod_lt _ (Nat.pow_pos (by decide))
      rw [Nat.mul_succ] at hdigit
      omega

/-- **Encodings of one length**: the first bytes tell the rest of the code points, and then the
    digits decide. -/
theorem cons_continuation_lt (digits : Nat) (h : v < w) (hm : m < 256) (hn : n < 256)
    (hless : v / 64 ^ digits < w / 64 ^ digits → m < n)
    (hsame : v / 64 ^ digits = w / 64 ^ digits → m = n) :
    UInt8.ofNat m :: (continuation digits v ++ s) <
      UInt8.ofNat n :: (continuation digits w ++ t) := by
  refine ofNat_cons_lt hm hn ?_
  rcases (Nat.div_le_div_right h.le).lt_or_eq with hlt | heq
  · exact .inl (hless hlt)
  · refine .inr ⟨hsame heq, continuation_lt ?_⟩
    have hv := Nat.div_add_mod v (64 ^ digits)
    have hw := Nat.div_add_mod w (64 ^ digits)
    rw [heq] at hv
    omega

end

/-- **The smaller character has the smaller encoding**, whatever follows. -/
theorem utf8EncodeChar_append_lt {c d : Char} (h : c < d) (s t : List UInt8) :
    String.utf8EncodeChar c ++ s < String.utf8EncodeChar d ++ t := by
  have hlt : c.val.toNat < d.val.toNat := h
  have hbound : d.val.toNat < 1114112 := by
    rcases d.valid with hvalid | hvalid
    · exact hvalid.trans (by decide)
    · exact hvalid.2
  unfold String.utf8EncodeChar
  generalize c.val.toNat = v at hlt
  generalize d.val.toNat = w at hlt hbound
  dsimp only
  have hfirst : ∀ {m n : Nat} {s t : List UInt8}, m < n → n < 256 →
      UInt8.ofNat m :: s < UInt8.ofNat n :: t :=
    fun hmn hn => ofNat_cons_lt (hmn.trans hn) hn (.inl hmn)
  split_ifs
  · exact hfirst hlt (by omega)
  · exact hfirst (by omega) (by omega)
  · exact hfirst (by omega) (by omega)
  · exact hfirst (by omega) (by omega)
  · omega
  · have htwo := cons_continuation_lt (s := s) (t := t) (m := v / 64 % 32 + 192)
      (n := w / 64 % 32 + 192) 1 hlt (by omega) (by omega) (by omega) (by omega)
    simpa [continuation] using htwo
  · exact hfirst (by omega) (by omega)
  · exact hfirst (by omega) (by omega)
  · omega
  · omega
  · have hthree := cons_continuation_lt (s := s) (t := t) (m := v / 4096 % 16 + 224)
      (n := w / 4096 % 16 + 224) 2 hlt (by omega) (by omega) (by omega) (by omega)
    simpa [continuation] using hthree
  · exact hfirst (by omega) (by omega)
  · omega
  · omega
  · omega
  · have hfour := cons_continuation_lt (s := s) (t := t) (m := v / 262144 % 8 + 240)
      (n := w / 262144 % 8 + 240) 3 hlt (by omega) (by omega) (by omega) (by omega)
    simpa [continuation] using hfour

/-! ## Strings -/

/-- The bytes of a string. -/
def bytes (s : String) : List UInt8 :=
  s.toUTF8.data.toList

theorem bytes_eq (s : String) : bytes s = s.toList.flatMap String.utf8EncodeChar := by
  rw [bytes, String.toUTF8_eq_toByteArray, ← String.utf8Encode_toList, List.utf8Encode,
    List.toList_data_toByteArray]

theorem bytes_lt {a b : String} (h : a < b) : bytes a < bytes b := by
  rw [String.lt_iff_toList_lt] at h
  rw [bytes_eq, bytes_eq]
  generalize a.toList = as at h
  generalize b.toList = bs at h
  induction as generalizing bs with
  | nil =>
    cases bs with
    | nil => exact absurd h (List.lt_irrefl _)
    | cons d rest =>
      rw [List.flatMap_nil, List.flatMap_cons]
      obtain ⟨first, more, hfirst⟩ :=
        List.exists_cons_of_ne_nil (String.utf8EncodeChar_ne_nil (c := d))
      rw [hfirst]
      exact List.nil_lt_cons _ _
  | cons c as ih =>
    cases bs with
    | nil => exact absurd h (List.not_lt_nil _)
    | cons d bs =>
      rw [List.flatMap_cons, List.flatMap_cons]
      rcases List.cons_lt_cons_iff.1 h with hlt | ⟨rfl, hrest⟩
      · exact utf8EncodeChar_append_lt hlt _ _
      · exact List.append_left_lt (ih bs hrest)

/-- **The order of strings is the order of their bytes.** -/
theorem bytes_lt_iff {a b : String} : bytes a < bytes b ↔ a < b := by
  refine ⟨fun h => ?_, bytes_lt⟩
  rcases lt_trichotomy a b with hlt | rfl | hgt
  · exact hlt
  · exact absurd h (List.lt_irrefl _)
  · exact absurd h (List.lt_asymm (bytes_lt hgt))

end Folio
