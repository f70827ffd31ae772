import Mathlib.Algebra.Group.Nat.Defs
import SongPreview.Digest

/-!
# Delimited lists of byte strings

A list of parts is digested as one byte string, in which each part stands behind its
length. As long as every length fits into its eight bytes, this string names the list:
the first eight bytes say where the first part ends, and so on through the list.
-/

namespace SongPreview.Digest

/-- Numbers with the same last digits to the base 256 agree as far as these reach. -/
theorem mod_eq_of_digits_eq {m n k : Nat}
    (h : ∀ i < k, m / Nat.pow 256 i % 256 = n / Nat.pow 256 i % 256) :
    m % 256 ^ k = n % 256 ^ k := by
  induction k with
  | zero => rw [Nat.pow_zero, Nat.mod_one, Nat.mod_one]
  | succ k ih =>
    have hlast : m / 256 ^ k % 256 = n / 256 ^ k % 256 := h k (Nat.lt_succ_self k)
    rw [Nat.mod_pow_succ, Nat.mod_pow_succ, ih fun i hi => h i (Nat.lt_succ_of_lt hi), hlast]

/-- Eight bytes hold every number below `2 ^ 64`. -/
theorem lengthBytes_injective {m n : Nat} (hm : m < 2 ^ 64) (hn : n < 2 ^ 64)
    (h : lengthBytes m = lengthBytes n) : m = n := by
  have hdigit : ∀ i < 8, m / Nat.pow 256 i % 256 = n / Nat.pow 256 i % 256 := by
    intro i hi
    have hi' := congrArg (fun bytes => (bytes[i]?.map UInt8.toNat)) h
    simpa [lengthBytes, hi] using hi'
  have hmod : m % 2 ^ 64 = n % 2 ^ 64 := mod_eq_of_digits_eq hdigit
  rwa [Nat.mod_eq_of_lt hm, Nat.mod_eq_of_lt hn] at hmod

/-- A part as it stands in a delimited list: behind its length. -/
def frame (part : ByteArray) : ByteArray :=
  ⟨(lengthBytes part.size).toArray⟩ ++ part

theorem delimit_nil : delimit [] = ByteArray.empty := rfl

/-- What was written before stays in front of all that follows. -/
theorem foldl_frame (out : ByteArray) (parts : List ByteArray) :
    parts.foldl (fun out part => out ++ ⟨(lengthBytes part.size).toArray⟩ ++ part) out =
      out ++ delimit parts := by
  unfold delimit
  induction parts generalizing out with
  | nil => simp only [List.foldl_nil, ByteArray.append_empty]
  | cons part parts ih =>
    rw [List.foldl_cons, List.foldl_cons, ih, ih (ByteArray.empty ++ _ ++ part)]
    simp only [ByteArray.empty_append, ByteArray.append_assoc]

theorem delimit_cons (part : ByteArray) (parts : List ByteArray) :
    delimit (part :: parts) = frame part ++ delimit parts := by
  rw [frame, ← foldl_frame]
  unfold delimit
  rw [List.foldl_cons, ByteArray.empty_append]

theorem size_lengthBytes (n : Nat) : (⟨(lengthBytes n).toArray⟩ : ByteArray).size = 8 := rfl

/-- Lists of parts with lengths below `2 ^ 64` never run together to the same bytes. -/
theorem delimit_injective {parts parts' : List ByteArray}
    (hparts : ∀ part ∈ parts, part.size < 2 ^ 64) (hparts' : ∀ part ∈ parts', part.size < 2 ^ 64)
    (h : delimit parts = delimit parts') : parts = parts' := by
  induction parts generalizing parts' with
  | nil =>
    cases parts' with
    | nil => rfl
    | cons part' rest' =>
      have hsize := congrArg ByteArray.size h
      rw [delimit_nil, delimit_cons, frame, ByteArray.size_append, ByteArray.size_append,
        size_lengthBytes, ByteArray.size_empty] at hsize
      omega
  | cons part rest ih =>
    cases parts' with
    | nil =>
      have hsize := congrArg ByteArray.size h
      rw [delimit_nil, delimit_cons, frame, ByteArray.size_append, ByteArray.size_append,
        size_lengthBytes, ByteArray.size_empty] at hsize
      omega
    | cons part' rest' =>
      rw [delimit_cons, delimit_cons, frame, frame, ByteArray.append_assoc,
        ByteArray.append_assoc] at h
      -- equal first eight bytes are equal lengths, and equal lengths split the rest alike
      have height := (size_lengthBytes part.size).trans (size_lengthBytes part'.size).symm
      obtain ⟨hlength, hrest⟩ := (ByteArray.append_eq_append_iff_of_size_eq_left height).mp h
      have hbytes : lengthBytes part.size = lengthBytes part'.size :=
        congrArg (fun bytes => bytes.data.toList) hlength
      have hsize : part.size = part'.size :=
        lengthBytes_injective (hparts part List.mem_cons_self)
          (hparts' part' List.mem_cons_self) hbytes
      obtain ⟨hpart, hlist⟩ := (ByteArray.append_eq_append_iff_of_size_eq_left hsize).mp hrest
      rw [hpart, ih (fun p hp => hparts p (List.mem_cons_of_mem _ hp))
        (fun p hp => hparts' p (List.mem_cons_of_mem _ hp)) hlist]

end SongPreview.Digest
