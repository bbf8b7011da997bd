import Mathlib.Data.Rat.Cast.Order
import Mathlib.Algebra.Order.Ring.Rat
import Dmerge.Foundation.Blocks

/-!
# Bundles of hyper-parameters

The stage before the trainers cuts a list of hyper-parameters into bundles, one for each
trainer, and a trainer takes the bundle at its ID.  A bundle is closed when it holds as
many triples as the list has for each trainer, which need not be a whole number, and
what is open at the end of the list is dropped.
-/

namespace Dmerge
namespace Workflow

open Foundation

structure HyperParams where
  numOfTrees : Nat
  maxDepth : Nat
  featureFraction : Rat
  deriving DecidableEq

/-- A bundle keeps its triples as three lists of one length. -/
structure Bundle where
  modIndex : Nat
  key1 : String
  numOfTrees : List Nat
  maxDepth : List Nat
  featureFraction : List Rat
  threads : Nat
  length_maxDepth : maxDepth.length = numOfTrees.length
  length_featureFraction : featureFraction.length = numOfTrees.length
  deriving DecidableEq

theorem Bundle.ext_lists {b b' : Bundle} (hmod : b.modIndex = b'.modIndex)
    (hkey : b.key1 = b'.key1) (htrees : b.numOfTrees = b'.numOfTrees)
    (hdepth : b.maxDepth = b'.maxDepth) (hfraction : b.featureFraction = b'.featureFraction)
    (hthreads : b.threads = b'.threads) : b = b' := by
  cases b
  cases b'
  cases hmod
  cases hkey
  cases htrees
  cases hdepth
  cases hfraction
  cases hthreads
  rfl

structure Bundling where
  numOfTrees : List Nat
  maxDepth : List Nat
  featureFraction : List Rat
  numBundles : Nat
  count : Nat
  indeces : List Bundle
  length_maxDepth : maxDepth.length = numOfTrees.length
  length_featureFraction : featureFraction.length = numOfTrees.length

def Bundling.start : Bundling where
  numOfTrees := []
  maxDepth := []
  featureFraction := []
  numBundles := 0
  count := 0
  indeces := []
  length_maxDepth := rfl
  length_featureFraction := rfl

theorem length_append_one {alpha beta : Type} {l : List alpha} {l' : List beta}
    (h : l.length = l'.length) (x : alpha) (y : beta) :
    (l ++ [x]).length = (l' ++ [y]).length := by
  rw [List.length_append, List.length_append, h]
  rfl

def bundleStep (bundleSize : Rat) (s : Bundling) (tri : HyperParams) : Bundling :=
  let featureFraction := s.featureFraction ++ [tri.featureFraction]
  let maxDepth := s.maxDepth ++ [tri.maxDepth]
  let numOfTrees := s.numOfTrees ++ [tri.numOfTrees]
  let count := s.count + 1
  have length_maxDepth := length_append_one s.length_maxDepth tri.maxDepth tri.numOfTrees
  have length_featureFraction :=
    length_append_one s.length_featureFraction tri.featureFraction tri.numOfTrees
  if bundleSize ≤ (count : Rat) then
    let numBundles := s.numBundles + 1
    { numOfTrees := []
      maxDepth := []
      featureFraction := []
      numBundles
      count := 0
      indeces := s.indeces ++
        [{ modIndex := numBundles, key1 := "inv_300", numOfTrees, maxDepth, featureFraction,
           threads := 6, length_maxDepth, length_featureFraction }]
      length_maxDepth := rfl
      length_featureFraction := rfl }
  else
    { numOfTrees, maxDepth, featureFraction, numBundles := s.numBundles, count,
      indeces := s.indeces, length_maxDepth, length_featureFraction }

/-- The loop over the triples.  The division by zero trainers aborts; a quotient of fewer
than 2 ^ 53 triples, which is a float, compares with the counts as the rational does. -/
def bundleHyperParams (params : List HyperParams) (mapperNum : Nat) : Option (List Bundle) :=
  if mapperNum = 0 then none
  else
    let bundleSize := (params.length : Rat) / (mapperNum : Rat)
    some (params.foldl (bundleStep bundleSize) Bundling.start).indeces

def listHyperParams (fractions : List Rat) (trees : List Nat) : List HyperParams :=
  fractions.flatMap fun featureFraction => trees.map fun numOfTrees =>
    { numOfTrees, maxDepth := 10, featureFraction }

def postHandle (epochs trainerNum : Nat) : Option (List Bundle) :=
  bundleHyperParams
    (listHyperParams [1 / 2, 1 / 2, 1 / 2, 1 / 2] [epochs, epochs, epochs, epochs]) trainerNum

def splitterBundles (mapperNum : Nat) : Option (List Bundle) :=
  bundleHyperParams (listHyperParams [1 / 4, 1 / 2, 3 / 4, 19 / 20] [5, 10, 15, 20]) mapperNum

/-- `meta['detail']['indeces'][ID]` -/
def trainerEvent (indeces : List Bundle) (id : Nat) : Option Bundle := indeces[id]?

/-- The triples of a bundle, which a trainer takes by index. -/
def Bundle.triples (b : Bundle) : List HyperParams :=
  (b.numOfTrees.zip (b.maxDepth.zip b.featureFraction)).map fun p =>
    { numOfTrees := p.1, maxDepth := p.2.1, featureFraction := p.2.2 }

/-- There is a bundle for each trainer, and the bundles are the list, in order. -/
structure ServesTrainers (params : List HyperParams) (trainerNum : Nat)
    (indeces : List Bundle) : Prop where
  count : indeces.length = trainerNum
  triples : indeces.flatMap Bundle.triples = params
  finds : forall id, id < trainerNum ->
    exists b, trainerEvent indeces id = some b ∧ b.modIndex = id + 1

/-!
## The loop
-/

def bundleOf (modIndex : Nat) (params : List HyperParams) : Bundle where
  modIndex := modIndex
  key1 := "inv_300"
  numOfTrees := params.map HyperParams.numOfTrees
  maxDepth := params.map HyperParams.maxDepth
  featureFraction := params.map HyperParams.featureFraction
  threads := 6
  length_maxDepth := by
    rw [List.length_map, List.length_map]
  length_featureFraction := by
    rw [List.length_map, List.length_map]

theorem triples_bundleOf (modIndex : Nat) (params : List HyperParams) :
    (bundleOf modIndex params).triples = params := by
  unfold Bundle.triples bundleOf
  induction params with
  | nil => rfl
  | cons tri rest ih => exact congrArg (List.cons tri) ih

def numberedBlocks (c : Nat) (params : List HyperParams) : List Bundle :=
  (fullBlocks c params).mapIdx fun i block => bundleOf (i + 1) block

/-- After some triples the closed bundles are the full blocks of them, and the open one
holds what is left. -/
structure BundlesOf (c : Nat) (done : List HyperParams) (s : Bundling) : Prop where
  numOfTrees : s.numOfTrees = (remainder c done).map HyperParams.numOfTrees
  maxDepth : s.maxDepth = (remainder c done).map HyperParams.maxDepth
  featureFraction : s.featureFraction = (remainder c done).map HyperParams.featureFraction
  count : s.count = (remainder c done).length
  numBundles : s.numBundles = (fullBlocks c done).length
  indeces : s.indeces = numberedBlocks c done

theorem BundlesOf.start (c : Nat) : BundlesOf c [] Bundling.start := by
  constructor
  · rw [remainder_nil]
    rfl
  · rw [remainder_nil]
    rfl
  · rw [remainder_nil]
    rfl
  · rw [remainder_nil]
    rfl
  · rw [fullBlocks_nil]
    rfl
  · unfold numberedBlocks
    rw [fullBlocks_nil]
    rfl

theorem append_eq_map {beta : Type} {f : HyperParams -> beta} {l : List beta}
    {pending : List HyperParams} (h : l = pending.map f) (tri : HyperParams) :
    l ++ [f tri] = (pending ++ [tri]).map f := by
  rw [h, List.map_append]
  rfl

theorem BundlesOf.step {c : Nat} {bundleSize : Rat} (hc : 1 ≤ c)
    (hsize : forall k : Nat, bundleSize ≤ (k : Rat) <-> c ≤ k) {done : List HyperParams}
    {s : Bundling} (h : BundlesOf c done s) (tri : HyperParams) :
    BundlesOf c (done ++ [tri]) (bundleStep bundleSize s tri) := by
  have hlt := length_remainder_lt hc done
  have hcount := h.count
  unfold bundleStep
  simp only [hsize]
  by_cases hclose : c ≤ s.count + 1
  · have hfull : (remainder c done).length + 1 = c := by
      omega
    rw [if_pos hclose]
    constructor
    · rw [remainder_append_full done tri hfull]
      rfl
    · rw [remainder_append_full done tri hfull]
      rfl
    · rw [remainder_append_full done tri hfull]
      rfl
    · rw [remainder_append_full done tri hfull]
      rfl
    · rw [fullBlocks_append_full done tri hfull, List.length_append, h.numBundles]
      rfl
    · unfold numberedBlocks
      rw [fullBlocks_append_full done tri hfull, List.mapIdx_concat]
      refine congrArg₂ (fun l b => l ++ [b]) h.indeces ?_
      apply Bundle.ext_lists
      · exact congrArg (fun n => n + 1) h.numBundles
      · rfl
      · exact append_eq_map h.numOfTrees tri
      · exact append_eq_map h.maxDepth tri
      · exact append_eq_map h.featureFraction tri
      · rfl
  · have hshort : (remainder c done).length + 1 < c := by
      omega
    rw [if_neg hclose]
    constructor
    · rw [remainder_append_short done tri hshort]
      exact append_eq_map h.numOfTrees tri
    · rw [remainder_append_short done tri hshort]
      exact append_eq_map h.maxDepth tri
    · rw [remainder_append_short done tri hshort]
      exact append_eq_map h.featureFraction tri
    · rw [remainder_append_short done tri hshort, List.length_append, h.count]
      rfl
    · rw [fullBlocks_append_short done tri hshort]
      exact h.numBundles
    · unfold numberedBlocks
      rw [fullBlocks_append_short done tri hshort]
      exact h.indeces

theorem bundlesOf_foldl {c : Nat} {bundleSize : Rat} (hc : 1 ≤ c)
    (hsize : forall k : Nat, bundleSize ≤ (k : Rat) <-> c ≤ k) (params : List HyperParams) :
    BundlesOf c params (params.foldl (bundleStep bundleSize) Bundling.start) := by
  induction params using List.reverseRecOn with
  | nil => exact BundlesOf.start c
  | append_singleton done tri ih =>
      rw [List.foldl_append]
      exact ih.step hc hsize tri

/-!
## How many bundles there are
-/

def perBundle (total trainerNum : Nat) : Nat := (total + trainerNum - 1) / trainerNum

theorem bundleSize_le_iff {total trainerNum : Nat} (hm : 0 < trainerNum) (k : Nat) :
    (total : Rat) / (trainerNum : Rat) ≤ (k : Rat) <-> perBundle total trainerNum ≤ k := by
  have hpos : (0 : Rat) < (trainerNum : Rat) := Nat.cast_pos.mpr hm
  rw [div_le_iff₀ hpos, ← Nat.cast_mul, Nat.cast_le]
  unfold perBundle
  rw [Nat.div_le_iff_le_mul_add_pred hm, Nat.mul_comm k]
  omega

theorem perBundle_pos {total trainerNum : Nat} (ht : 1 ≤ total) (hm : 0 < trainerNum) :
    1 ≤ perBundle total trainerNum :=
  Nat.div_pos (by omega) hm

theorem bundleHyperParams_eq {params : List HyperParams} {trainerNum : Nat}
    (hparams : 1 ≤ params.length) (hm : 0 < trainerNum) :
    bundleHyperParams params trainerNum =
      some (numberedBlocks (perBundle params.length trainerNum) params) := by
  unfold bundleHyperParams
  rw [if_neg (Nat.ne_of_gt hm)]
  exact congrArg some
    (bundlesOf_foldl (perBundle_pos hparams hm) (bundleSize_le_iff hm) params).indeces

theorem length_numberedBlocks (c : Nat) (params : List HyperParams) :
    (numberedBlocks c params).length = params.length / c := by
  unfold numberedBlocks
  rw [List.length_mapIdx, length_fullBlocks]

theorem triples_numbered (blocks : List (List HyperParams)) :
    (blocks.mapIdx fun i block => bundleOf (i + 1) block).flatMap Bundle.triples =
      blocks.flatten := by
  induction blocks using List.reverseRecOn with
  | nil => rfl
  | append_singleton blocks block ih =>
      rw [List.mapIdx_concat, List.flatMap_append, List.flatten_append, ih, List.flatMap_singleton,
        List.flatten_singleton, triples_bundleOf]

theorem trainerEvent_numberedBlocks {c id : Nat} {params : List HyperParams}
    (hid : id < (numberedBlocks c params).length) :
    exists b, trainerEvent (numberedBlocks c params) id = some b ∧ b.modIndex = id + 1 := by
  unfold numberedBlocks at hid
  rw [List.length_mapIdx] at hid
  refine ⟨bundleOf (id + 1) (fullBlocks c params)[id], ?_, rfl⟩
  unfold trainerEvent numberedBlocks
  rw [List.getElem?_mapIdx, List.getElem?_eq_getElem hid]
  rfl

theorem dvd_of_blocks {total trainerNum : Nat}
    (hcount : total / perBundle total trainerNum = trainerNum)
    (hnone : total % perBundle total trainerNum = 0) : trainerNum ∣ total := by
  have hdiv := Nat.div_add_mod total (perBundle total trainerNum)
  rw [hcount, hnone, Nat.add_zero] at hdiv
  exact ⟨perBundle total trainerNum, by rw [Nat.mul_comm, hdiv]⟩

theorem perBundle_of_dvd {total trainerNum : Nat} (hm : 0 < trainerNum)
    (hdvd : trainerNum ∣ total) : perBundle total trainerNum = total / trainerNum := by
  rcases hdvd with ⟨k, rfl⟩
  unfold perBundle
  rw [Nat.mul_div_cancel_left k hm]
  apply Nat.div_eq_of_lt_le
  · rw [Nat.mul_comm]
    omega
  · rw [Nat.succ_mul, Nat.mul_comm]
    omega

/-- The bundles serve every trainer and lose nothing exactly if the number of trainers
divides the number of triples. -/
theorem bundles_serve_iff (params : List HyperParams) (trainerNum : Nat)
    (hparams : 1 ≤ params.length) (hm : 1 ≤ trainerNum) :
    (exists indeces, bundleHyperParams params trainerNum = some indeces ∧
      ServesTrainers params trainerNum indeces) <-> trainerNum ∣ params.length := by
  have hc := perBundle_pos hparams hm
  rw [bundleHyperParams_eq hparams hm]
  constructor
  · rintro ⟨indeces, hbundles, hserves⟩
    cases hbundles
    have hcount := hserves.count
    rw [length_numberedBlocks] at hcount
    have htriples : (fullBlocks (perBundle params.length trainerNum) params).flatten = params := by
      rw [← triples_numbered]
      exact hserves.triples
    have hwhole := flatten_fullBlocks_append hc params
    rw [htriples] at hwhole
    have hnone := length_remainder (perBundle params.length trainerNum) params
    rw [List.append_right_eq_self.mp hwhole] at hnone
    exact dvd_of_blocks hcount hnone.symm
  · intro hdvd
    have hper := perBundle_of_dvd hm hdvd
    have hlength : (numberedBlocks (perBundle params.length trainerNum) params).length =
        trainerNum := by
      rw [length_numberedBlocks, hper]
      exact Nat.div_div_self hdvd (Nat.ne_of_gt hparams)
    refine ⟨_, rfl, hlength, ?_, ?_⟩
    · have hnone : remainder (perBundle params.length trainerNum) params = [] := by
        apply List.eq_nil_of_length_eq_zero
        rw [length_remainder, hper]
        exact Nat.mod_eq_zero_of_dvd (Nat.div_dvd_of_dvd hdvd)
      have hwhole := flatten_fullBlocks_append hc params
      rw [hnone, List.append_nil] at hwhole
      exact (triples_numbered _).trans hwhole
    · intro id hid
      apply trainerEvent_numberedBlocks
      rw [hlength]
      exact hid

theorem bundles_serve_iff_eight :
    exists indeces, postHandle 10 8 = some indeces ∧
      ServesTrainers (listHyperParams [1 / 2, 1 / 2, 1 / 2, 1 / 2] [10, 10, 10, 10]) 8 indeces :=
  (bundles_serve_iff (listHyperParams [1 / 2, 1 / 2, 1 / 2, 1 / 2] [10, 10, 10, 10]) 8
    (by decide) (by decide)).mpr (by decide)

/-- Sixteen triples for five trainers make four bundles. -/
theorem not_bundles_serve_five :
    ¬ forall (params : List HyperParams) (trainerNum : Nat), 1 ≤ trainerNum ->
      trainerNum ≤ params.length -> exists indeces,
        bundleHyperParams params trainerNum = some indeces ∧
          ServesTrainers params trainerNum indeces := by
  intro h
  rcases h (listHyperParams [1 / 2, 1 / 2, 1 / 2, 1 / 2] [10, 10, 10, 10]) 5 (by decide)
    (by decide) with ⟨indeces, hbundles, hserves⟩
  rw [bundleHyperParams_eq (by decide) (by decide)] at hbundles
  cases hbundles
  have hcount := hserves.count
  rw [length_numberedBlocks] at hcount
  exact absurd hcount (by decide)

end Workflow
end Dmerge
