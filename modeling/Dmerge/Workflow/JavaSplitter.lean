import Dmerge.Workflow.WordCount

/-!
# The splitter in Java

The word count was also written in Java.  Its splitter computes the same indices as the one
in Python, but cuts with `subList`, which throws where a slice would be empty, and its
indices are integers of 32 bits.
-/

namespace Dmerge
namespace Workflow
namespace Java

open Foundation

/-- A list that has been read: its size is an integer. -/
structure ArrayList where
  elems : List String
  size_lt : elems.length < 2 ^ 31

inductive Thrown where
  | indexOutOfBounds
  | illegalArgument
  deriving DecidableEq, Repr

namespace ArrayList

def size (l : ArrayList) : Int32 := Int32.ofNat l.elems.length

def subList (l : ArrayList) (fromIndex toIndex : Int32) : Except Thrown (List String) :=
  if fromIndex < 0 then .error .indexOutOfBounds
  else if toIndex > l.size then .error .indexOutOfBounds
  else if fromIndex > toIndex then .error .illegalArgument
  else .ok (slice l.elems fromIndex.toInt.toNat toIndex.toInt.toNat)

end ArrayList

/-- `(int) Math.ceil((double) totalLines / k)`.  A quotient of two integers of 32 bits is not
rounded over an integer, so this is the division rounded up. -/
def linesPerFile (totalLines k : Int32) : Int32 :=
  Int32.ofNat (Workflow.linesPerFile totalLines.toInt.toNat k.toInt.toNat)

/-- `Math.min` -/
def mathMin (a b : Int32) : Int32 := if a ≤ b then a else b

def appendLines (lines : List String) : String :=
  lines.foldl (fun sb s => sb ++ s ++ "\n") ""

/-- One round of the loop. -/
def chunk (lines : ArrayList) (linesPerFile i : Int32) : Except Thrown String := do
  let start := i * linesPerFile
  let stop := mathMin ((i + 1) * linesPerFile) lines.size
  let sublist ← lines.subList start stop
  .ok (appendLines sublist)

def splitter (lines : ArrayList) (k : Int32) : Except Thrown (List String) :=
  (List.range k.toInt.toNat).mapM fun i =>
    chunk lines (linesPerFile lines.size k) (Int32.ofNat i)

/-- The article is cut into `k` strings, at the points of the splitter in Python. -/
structure Partitions (lines : List String) (k : Nat) (out : List String) : Prop where
  length : out.length = k
  join : String.join out = String.join (lines.map fun line => line ++ "\n")
  samePoints : out = (splitterExecuteBody lines k).map appendLines

/-!
## Integers
-/

theorem toInt_size (l : ArrayList) : l.size.toInt = l.elems.length :=
  Int32.toInt_ofNat_of_lt l.size_lt

theorem toInt_mul_ofNat {i n : Nat} (hi : i < 2 ^ 31) (hn : n < 2 ^ 31) :
    (Int32.ofNat i * Int32.ofNat n).toInt = ((i * n : Nat) : Int).bmod (2 ^ 32) := by
  rw [Int32.toInt_mul, Int32.toInt_ofNat_of_lt hi, Int32.toInt_ofNat_of_lt hn]
  push_cast
  rfl

theorem toInt_mul_of_lt {i n : Nat} (hi : i < 2 ^ 31) (hn : n < 2 ^ 31) (h : i * n < 2 ^ 31) :
    (Int32.ofNat i * Int32.ofNat n).toInt = ((i * n : Nat) : Int) := by
  rw [toInt_mul_ofNat hi hn]
  apply Int.bmod_eq_of_le
  · omega
  · omega

theorem toInt_mul_neg {i n : Nat} (hi : i < 2 ^ 31) (hn : n < 2 ^ 31) (hlow : 2 ^ 31 ≤ i * n)
    (hhigh : i * n < 2 ^ 32) : (Int32.ofNat i * Int32.ofNat n).toInt < 0 := by
  rw [toInt_mul_ofNat hi hn, Int.bmod_def]
  have hmod : ((i * n : Nat) : Int) % (2 ^ 32 : Nat) = ((i * n : Nat) : Int) := by
    apply Int.emod_eq_of_lt
    · omega
    · exact_mod_cast hhigh
  rw [hmod, if_neg]
  · omega
  · omega

theorem toInt_mathMin (a b : Int32) : (mathMin a b).toInt = min a.toInt b.toInt := by
  unfold mathMin
  split
  · next h => exact (min_eq_left (Int32.le_iff_toInt_le.mp h)).symm
  · next h =>
      rw [Int32.le_iff_toInt_le] at h
      exact (min_eq_right (Int.le_of_not_le h)).symm

theorem linesPerFile_le (totalLines : Nat) {k : Nat} (hk : 1 ≤ k) :
    Workflow.linesPerFile totalLines k ≤ totalLines := by
  unfold Workflow.linesPerFile
  apply Nat.le_of_lt_succ
  apply (Nat.div_lt_iff_lt_mul hk).mpr
  rw [Nat.succ_mul]
  have hmul : totalLines ≤ totalLines * k := Nat.le_mul_of_pos_right totalLines hk
  omega

/-!
## One round
-/

theorem subList_ok_iff {l : ArrayList} {fromIndex toIndex : Int32} {r : List String} :
    l.subList fromIndex toIndex = .ok r <->
      0 ≤ fromIndex.toInt ∧ toIndex.toInt ≤ l.elems.length ∧ fromIndex.toInt ≤ toIndex.toInt ∧
        r = slice l.elems fromIndex.toInt.toNat toIndex.toInt.toNat := by
  unfold ArrayList.subList
  simp only [gt_iff_lt, Int32.lt_iff_toInt_lt, toInt_size]
  change (if fromIndex.toInt < 0 then _ else _) = _ <-> _
  split
  · next hneg =>
      constructor
      · intro h
        cases h
      · rintro ⟨hpos, _⟩
        omega
  · next hpos =>
      split
      · next hsize =>
          constructor
          · intro h
            cases h
          · rintro ⟨_, hle, _⟩
            omega
      · next hsize =>
          split
          · next horder =>
              constructor
              · intro h
                cases h
              · rintro ⟨_, _, hle, _⟩
                omega
          · next horder =>
              constructor
              · intro h
                cases h
                exact ⟨by omega, by omega, by omega, rfl⟩
              · rintro ⟨_, _, _, rfl⟩
                rfl

section Rounds

variable {lines : ArrayList} {i n : Nat}

theorem toInt_stop (lines : ArrayList) (i n : Nat) :
    (mathMin ((Int32.ofNat i + 1) * Int32.ofNat n) lines.size).toInt =
      min (Int32.ofNat (i + 1) * Int32.ofNat n).toInt lines.elems.length := by
  rw [toInt_mathMin, toInt_size]
  have hsucc : Int32.ofNat i + 1 = Int32.ofNat (i + 1) := (Int32.ofNat_add i 1).symm
  rw [hsucc]

theorem chunk_ok (hi : i + 1 < 2 ^ 31) (hn : n < 2 ^ 31) (hstart : i * n ≤ lines.elems.length)
    (hstop : (i + 1) * n < 2 ^ 31) :
    chunk lines (Int32.ofNat n) (Int32.ofNat i) =
      .ok (appendLines (slice lines.elems (i * n) (min ((i + 1) * n) lines.elems.length))) := by
  have hle : i * n ≤ (i + 1) * n := Nat.mul_le_mul_right n (Nat.le_succ i)
  have hfrom := toInt_mul_of_lt (by omega) hn (Nat.lt_of_le_of_lt hle hstop)
  have hto := toInt_stop lines i n
  rw [toInt_mul_of_lt hi hn hstop] at hto
  have hsub : lines.subList (Int32.ofNat i * Int32.ofNat n)
      (mathMin ((Int32.ofNat i + 1) * Int32.ofNat n) lines.size) =
        .ok (slice lines.elems (i * n) (min ((i + 1) * n) lines.elems.length)) := by
    apply subList_ok_iff.mpr
    rw [hfrom, hto]
    refine ⟨by omega, by omega, by omega, ?_⟩
    congr 1
    omega
  unfold chunk
  simp only [hsub, ok_bind]

theorem of_chunk_ok (hi : i + 1 < 2 ^ 31) (hle : n ≤ lines.elems.length)
    (hstart : i * n < 2 ^ 31)
    (h : exists r, chunk lines (Int32.ofNat n) (Int32.ofNat i) = .ok r) :
    i * n ≤ lines.elems.length ∧ (i + 1) * n < 2 ^ 31 := by
  have hsize := lines.size_lt
  have hn : n < 2 ^ 31 := Nat.lt_of_le_of_lt hle hsize
  have hfrom := toInt_mul_of_lt (by omega) hn hstart
  have hto := toInt_stop lines i n
  rcases h with ⟨r, hr⟩
  unfold chunk at hr
  cases hsub : lines.subList (Int32.ofNat i * Int32.ofNat n)
      (mathMin ((Int32.ofNat i + 1) * Int32.ofNat n) lines.size) with
  | error e =>
      simp only [hsub] at hr
      cases hr
  | ok sub =>
      rcases subList_ok_iff.mp hsub with ⟨_, hend, horder, _⟩
      rw [hfrom, hto] at horder
      have hinside : i * n ≤ lines.elems.length := by
        omega
      refine ⟨hinside, ?_⟩
      by_contra hlarge
      have hneg := toInt_mul_neg hi hn (Nat.le_of_not_lt hlarge) (by rw [Nat.succ_mul]; omega)
      omega

end Rounds

/-!
## The strings
-/

theorem appendLines_eq (lines : List String) :
    appendLines lines = String.join (lines.map fun line => line ++ "\n") := by
  have hfrom : forall sb : String, lines.foldl (fun sb s => sb ++ s ++ "\n") sb =
      sb ++ String.join (lines.map fun line => line ++ "\n") := by
    induction lines with
    | nil =>
        intro sb
        exact String.append_empty.symm
    | cons line rest ih =>
        intro sb
        rw [List.foldl_cons, ih, List.map_cons, String.join_cons]
        simp only [String.append_assoc]
  unfold appendLines
  rw [hfrom, String.empty_append]

theorem join_appendLines (chunks : List (List String)) :
    String.join (chunks.map appendLines) =
      String.join (chunks.flatten.map fun line => line ++ "\n") := by
  induction chunks with
  | nil => rfl
  | cons chunk rest ih =>
      rw [List.map_cons, String.join_cons, ih, appendLines_eq, List.flatten_cons,
        List.map_append, String.join_append]

theorem partitions_splitterExecuteBody (lines : List String) {k : Nat} (hk : 1 ≤ k) :
    Partitions lines k ((splitterExecuteBody lines k).map appendLines) where
  length := by
    rw [List.length_map]
    exact length_splitterExecuteBody lines k
  join := by
    rw [join_appendLines, flatten_splitterExecuteBody lines hk]
  samePoints := rfl

/-!
## The loop
-/

/-- No round starts behind the lines, and no product overflows. -/
def RoundsFit (totalLines k : Nat) : Prop :=
  (k - 1) * Workflow.linesPerFile totalLines k ≤ totalLines ∧
    k * Workflow.linesPerFile totalLines k < 2 ^ 31

instance (totalLines k : Nat) : Decidable (RoundsFit totalLines k) :=
  inferInstanceAs (Decidable (_ ∧ _))

theorem splitter_eq (lines : ArrayList) (k : Int32) :
    splitter lines k = (List.range k.toInt.toNat).mapM fun i =>
      chunk lines (Int32.ofNat (Workflow.linesPerFile lines.elems.length k.toInt.toNat))
        (Int32.ofNat i) := by
  unfold splitter linesPerFile
  rw [toInt_size, Int.toNat_natCast]

theorem toNat_lt (k : Int32) : k.toInt.toNat < 2 ^ 31 := by
  have h := k.toInt_lt
  omega

theorem splitter_ok {lines : ArrayList} {k : Int32} (hk : 1 ≤ k.toInt.toNat)
    (hfit : RoundsFit lines.elems.length k.toInt.toNat) :
    splitter lines k =
      .ok ((splitterExecuteBody lines.elems k.toInt.toNat).map appendLines) := by
  have hlt := toNat_lt k
  have hle := linesPerFile_le lines.elems.length hk
  have hsize := lines.size_lt
  rw [splitter_eq]
  unfold splitterExecuteBody
  rw [List.map_map]
  apply mapM_ok
  intro i hi
  have hik := List.mem_range.mp hi
  apply chunk_ok (by omega) (by omega)
  · exact Nat.le_trans (Nat.mul_le_mul_right _ (by omega)) hfit.1
  · exact Nat.lt_of_le_of_lt (Nat.mul_le_mul_right _ (by omega)) hfit.2

theorem roundsFit_of_splitter_ok {lines : ArrayList} {k : Int32} (hk : 1 ≤ k.toInt.toNat)
    (h : exists out, splitter lines k = .ok out) :
    RoundsFit lines.elems.length k.toInt.toNat := by
  have hlt := toNat_lt k
  have hle := linesPerFile_le lines.elems.length hk
  rw [splitter_eq, exists_mapM_ok_iff] at h
  unfold RoundsFit
  generalize Workflow.linesPerFile lines.elems.length k.toInt.toNat = n at *
  have hround : forall i, i < k.toInt.toNat ->
      i * n ≤ lines.elems.length ∧ (i + 1) * n < 2 ^ 31 := by
    intro i
    induction i with
    | zero =>
        intro hi
        exact of_chunk_ok (by omega) hle (by omega) (h 0 (List.mem_range.mpr hi))
    | succ i ih =>
        intro hi
        exact of_chunk_ok (by omega) hle (ih (by omega)).2 (h (i + 1) (List.mem_range.mpr hi))
  have hlast := hround (k.toInt.toNat - 1) (by omega)
  rw [Nat.sub_add_cancel hk] at hlast
  exact hlast

/-- The splitter cuts an article as the one in Python does exactly if none of its rounds
starts behind the lines and no product overflows; else it throws. -/
theorem splitter_partitions_iff (lines : ArrayList) (k : Int32) (hk : 1 ≤ k) :
    (exists out, splitter lines k = .ok out ∧ Partitions lines.elems k.toInt.toNat out) <->
      RoundsFit lines.elems.length k.toInt.toNat := by
  have hpos : 1 ≤ k.toInt.toNat := by
    have h := Int32.le_iff_toInt_le.mp hk
    change 1 ≤ k.toInt at h
    omega
  constructor
  · rintro ⟨out, hout, _⟩
    exact roundsFit_of_splitter_ok hpos ⟨out, hout⟩
  · intro hfit
    exact ⟨_, splitter_ok hpos hfit, partitions_splitterExecuteBody lines.elems hpos⟩

theorem splitter_partitions_three :
    exists out, splitter ⟨["a", "b", "c", "d", "e"], by decide⟩ 3 = .ok out ∧
      Partitions ["a", "b", "c", "d", "e"] 3 out :=
  (splitter_partitions_iff ⟨["a", "b", "c", "d", "e"], by decide⟩ 3 (by decide)).mpr (by decide)

/-- Five lines are not cut into four: the fourth round starts behind the lines. -/
theorem not_splitter_partitions_four :
    ¬ forall (lines : ArrayList) (k : Int32), 1 ≤ k ->
      exists out, splitter lines k = .ok out ∧ Partitions lines.elems k.toInt.toNat out := by
  intro h
  rcases h ⟨["a", "b", "c", "d", "e"], by decide⟩ 4 (by decide) with ⟨out, hout, _⟩
  have hthrows : splitter ⟨["a", "b", "c", "d", "e"], by decide⟩ 4 =
      .error .illegalArgument := by
    decide +kernel
  rw [hthrows] at hout
  cases hout

end Java
end Workflow
end Dmerge
