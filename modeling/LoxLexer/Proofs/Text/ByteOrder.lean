import Mathlib.Data.String.Basic
import LoxLexer.Proofs.Text.Encoding

/-!
# Texts in the order of their bytes

Texts are compared character by character, by the codes of the characters. It makes no difference to compare
their bytes instead: of two characters the one with the smaller code is also the one that comes first by its
bytes, and the bytes of neither begin those of the other.

* `charBytes_append_lt`: two characters that differ decide the order of bytes.
* `bytesOf_lt_iff`: the order of bytes is the order of texts.
-/

namespace LoxLexer

/-- The bytes of a text, as numbers. -/
def bytesOf (s : String) : List Nat :=
  (encode s).map UInt8.toNat

/-- The bytes of a character, as numbers. -/
def charBytes (c : Char) : List Nat :=
  (String.utf8EncodeChar c).map UInt8.toNat

theorem bytesOf_eq_flatMap (s : String) : bytesOf s = s.toList.flatMap charBytes := by
  rw [bytesOf, encode_eq_flatMap, List.map_flatMap]
  rfl

/-- A character has from one to four bytes, by its code. -/
theorem charBytes_eq (c : Char) :
    charBytes c =
      if c.toNat ≤ 127 then [c.toNat]
      else if c.toNat ≤ 2047 then [c.toNat / 64 + 192, c.toNat % 64 + 128]
      else if c.toNat ≤ 65535 then
        [c.toNat / 4096 + 224, c.toNat / 64 % 64 + 128, c.toNat % 64 + 128]
      else
        [c.toNat / 262144 + 240, c.toNat / 4096 % 64 + 128, c.toNat / 64 % 64 + 128,
          c.toNat % 64 + 128] := by
  have hbound : c.toNat < 1114112 := by
    rcases c.valid with h | ⟨-, h⟩
    · exact Nat.lt_trans h (by decide)
    · exact h
  have hbyte : ∀ n < 256, (UInt8.ofNat n).toNat = n := fun n hn => UInt8.toNat_ofNat_of_lt' hn
  have hval : c.val.toNat = c.toNat := rfl
  unfold charBytes String.utf8EncodeChar
  simp only [hval]
  split_ifs <;> simp only [List.map_cons, List.map_nil, List.cons.injEq, and_true]
  -- each byte is small enough for its place
  · exact hbyte _ (by omega)
  · rw [hbyte _ (by omega), hbyte _ (by omega)]
    omega
  · rw [hbyte _ (by omega), hbyte _ (by omega), hbyte _ (by omega)]
    omega
  · rw [hbyte _ (by omega), hbyte _ (by omega), hbyte _ (by omega), hbyte _ (by omega)]
    omega

/-- **The first characters that differ decide**, whatever bytes come after them. -/
theorem charBytes_append_lt {c d : Char} (h : c < d) (u v : List Nat) :
    charBytes c ++ u < charBytes d ++ v := by
  have hlt : c.toNat < d.toNat := h
  rw [charBytes_eq, charBytes_eq]
  split_ifs <;> simp only [List.cons_append, List.nil_append, List.cons_lt_cons_iff] <;> omega

theorem charBytes_ne_nil (c : Char) : charBytes c ≠ [] := by
  rw [charBytes, ne_eq, List.map_eq_nil_iff]
  exact String.utf8EncodeChar_ne_nil

theorem flatMap_charBytes_lt {cs ds : List Char} (h : cs < ds) :
    cs.flatMap charBytes < ds.flatMap charBytes := by
  induction ds generalizing cs with
  | nil => exact absurd h (List.not_lt_nil cs)
  | cons d ds ih =>
    rw [List.flatMap_cons]
    cases cs with
    | nil =>
      obtain ⟨b, bs, hb⟩ := List.exists_cons_of_ne_nil (charBytes_ne_nil d)
      rw [hb]
      exact List.nil_lt_cons b _
    | cons c cs =>
      rw [List.flatMap_cons]
      rcases List.cons_lt_cons_iff.mp h with hcd | ⟨rfl, hrest⟩
      · exact charBytes_append_lt hcd _ _
      · exact List.append_left_lt (ih hrest)

/-- Texts that come one after the other have bytes that do so. -/
theorem strictMono_bytesOf : StrictMono bytesOf := by
  intro s t h
  rw [bytesOf_eq_flatMap, bytesOf_eq_flatMap]
  exact flatMap_charBytes_lt (String.lt_iff_toList_lt.mp h)

/-- **The order of bytes is the order of texts.** -/
theorem bytesOf_lt_iff {s t : String} : bytesOf s < bytesOf t ↔ s < t :=
  strictMono_bytesOf.lt_iff_lt

end LoxLexer
