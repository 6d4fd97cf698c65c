import Mathlib.Data.List.Basic
import LoxLexer.File.Error

/-!
# Texts and their bytes

The bytes of a text are those of its characters, one after the other. A line feed is a byte that belongs
to no other character. Bytes can therefore be cut into lines before anyone knows whether they spell a
text: what ends a line of bytes ends a line of the text.

* `decode_eq_some_iff`: bytes spell a text exactly if they are its bytes.
* `newline_mem_encode_iff`: the line feeds of the bytes are those of the text.
* `decode_append_newline`: one more line feed is one more line feed.
-/

namespace LoxLexer

theorem encode_eq_flatMap (s : String) : encode s = s.toList.flatMap String.utf8EncodeChar := by
  rw [encode, String.toUTF8_eq_toByteArray, ← String.utf8Encode_toList]
  exact List.data_toByteArray ▸ List.toList_toArray

theorem encode_append (s t : String) : encode (s ++ t) = encode s ++ encode t := by
  simp only [encode_eq_flatMap, String.toList_append, List.flatMap_append]

theorem encode_newline : encode "\n" = [10] := by decide

/-- **Bytes spell a text** exactly if they are the bytes of the text. -/
theorem decode_eq_some_iff {bytes : List UInt8} {s : String} :
    decode bytes = some s ↔ encode s = bytes := by
  constructor
  · intro h
    unfold decode String.fromUTF8? at h
    split at h
    · obtain rfl := Option.some.inj h
      rfl
    · exact absurd h.symm (Option.some_ne_none s)
  · rintro rfl
    exact decode_encode s

theorem decode_eq_none_iff {bytes : List UInt8} :
    decode bytes = none ↔ ∀ s, encode s ≠ bytes := by
  simp only [Option.eq_none_iff_forall_ne_some, ne_eq, decode_eq_some_iff]

/-- The byte of a line feed is that of the character alone: in a character of several bytes every byte is
at least 128. -/
theorem newline_mem_utf8EncodeChar_iff {c : Char} :
    10 ∈ String.utf8EncodeChar c ↔ c = '\n' := by
  constructor
  · intro h
    have hnat : ∀ n, n < 256 → 10 = UInt8.ofNat n → n = 10 := by
      intro n hlt heq
      have hn := congrArg UInt8.toNat heq
      rw [UInt8.toNat_ofNat_of_lt' hlt] at hn
      exact hn.symm
    have hlarge : ∀ n, 128 ≤ n → n < 256 → 10 ≠ UInt8.ofNat n := by
      intro n hle hlt heq
      have hn := hnat n hlt heq
      omega
    unfold String.utf8EncodeChar at h
    simp only at h
    split_ifs at h with hone htwo hthree
    · have hval := hnat _ (by omega) (List.mem_singleton.mp h)
      exact Char.ext (UInt32.toNat_inj.mp hval)
    · simp only [List.mem_cons, List.not_mem_nil, or_false] at h
      rcases h with h | h <;> exact absurd h (hlarge _ (by omega) (by omega))
    · simp only [List.mem_cons, List.not_mem_nil, or_false] at h
      rcases h with h | h | h <;> exact absurd h (hlarge _ (by omega) (by omega))
    · simp only [List.mem_cons, List.not_mem_nil, or_false] at h
      rcases h with h | h | h | h <;> exact absurd h (hlarge _ (by omega) (by omega))
  · rintro rfl
    decide

/-- **The line feeds of the bytes** are the line feeds of the text. -/
theorem newline_mem_encode_iff {s : String} : 10 ∈ encode s ↔ '\n' ∈ s.toList := by
  rw [encode_eq_flatMap, List.mem_flatMap]
  constructor
  · rintro ⟨c, hc, h⟩
    rwa [newline_mem_utf8EncodeChar_iff.mp h] at hc
  · intro h
    exact ⟨_, h, newline_mem_utf8EncodeChar_iff.mpr rfl⟩

/-- A text whose bytes end with a line feed ends with a line feed. -/
theorem exists_eq_append_newline {s : String} {bytes : List UInt8} (h : encode s = bytes ++ [10]) :
    ∃ t, s = t ++ "\n" ∧ encode t = bytes := by
  rcases List.eq_nil_or_concat s.toList with hnil | ⟨init, c, hlast⟩
  · rw [encode_eq_flatMap, hnil] at h
    exact absurd h.symm (by simp)
  · rw [List.concat_eq_append] at hlast
    rw [encode_eq_flatMap, hlast, List.flatMap_append, List.flatMap_singleton] at h
    -- the last byte belongs to the last character, which has to be the line feed
    have hbyte : 10 ∈ String.utf8EncodeChar c := by
      have hget := congrArg List.getLast? h
      rw [List.getLast?_append_of_ne_nil _ String.utf8EncodeChar_ne_nil,
        List.getLast?_concat] at hget
      exact List.mem_of_getLast? hget
    obtain rfl := newline_mem_utf8EncodeChar_iff.mp hbyte
    refine ⟨String.ofList init, ?_, ?_⟩
    · rw [← String.toList_inj, hlast, String.toList_append, String.toList_ofList]
      rfl
    · rw [encode_eq_flatMap, String.toList_ofList]
      exact List.append_cancel_right h

/-- **One more line feed** at the end of the bytes is one more at the end of the text. -/
theorem decode_append_newline (bytes : List UInt8) :
    decode (bytes ++ [10]) = (decode bytes).map (· ++ "\n") := by
  cases h : decode bytes with
  | some s =>
    obtain rfl := decode_eq_some_iff.mp h
    rw [Option.map_some, decode_eq_some_iff, encode_append, encode_newline]
  | none =>
    rw [Option.map_none, decode_eq_none_iff]
    intro s hs
    obtain ⟨t, -, ht⟩ := exists_eq_append_newline hs
    exact decode_eq_none_iff.mp h t ht

end LoxLexer
