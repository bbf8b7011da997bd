import Dmerge.Foundation.Interleaving
import Dmerge.Foundation.NestedDict
import Dmerge.Workflow.Bundles

/-!
# Training the trees of a bundle

A trainer goes through the triples of its bundle.  For each of them it starts as many
processes as the bundle has threads and waits until they have ended.  A process puts its
model into the store and its results into dictionaries that are shared.  The name of the
model has no place for the triple, and the keys of the dictionaries have none for the
thread.
-/

namespace Dmerge
namespace Workflow

open Foundation

/-- What one training gives: its model, its accuracy, and what the clock measured. -/
structure Trained (Acc Model : Type) where
  acc : Acc
  model : Model
  processTime : Int
  uploadTime : Int
  sdTime : Int

/-- The steps of a process that the other processes see. -/
inductive SharedOp (Acc Model : Type) where
  | redisPut (name : String) (o : Model)
  | setReturn (key : String) (acc : Acc)
  | setProcess (key : String) (ms : Int)
  | setUpload (key : String) (ms : Int)
  | setSd (key : String) (ms : Int)

structure Shared (Acc Model : Type) where
  store : Dict String Model
  returnDict : Dict String Acc
  processDict : Dict String Int
  uploadDict : Dict String Int
  sdDict : Dict String Int

section Trainer

variable {Acc Model : Type}

def SharedOp.apply (s : Shared Acc Model) : SharedOp Acc Model -> Shared Acc Model
  | .redisPut name o => { s with store := s.store.insert name o }
  | .setReturn key acc => { s with returnDict := s.returnDict.insert key acc }
  | .setProcess key ms => { s with processDict := s.processDict.insert key ms }
  | .setUpload key ms => { s with uploadDict := s.uploadDict.insert key ms }
  | .setSd key ms => { s with sdDict := s.sdDict.insert key ms }

/-- `execute_body` starts with empty dictionaries. -/
def Shared.start (store : Dict String Model) : Shared Acc Model where
  store := store
  returnDict := ∅
  processDict := ∅
  uploadDict := ∅
  sdDict := ∅

def Shared.after (s : Shared Acc Model) (trace : List (SharedOp Acc Model)) : Shared Acc Model :=
  trace.foldl SharedOp.apply s

/-!
## The bodies
-/

variable (strFloat : Rat -> String)

/-- The shared steps of one training; `runs` is the number of trees again. -/
def trainTree (tIndex : Nat) (event : Bundle) (maxDepth : Nat) (featureFraction : Rat)
    (runs : Nat) (o : Trained Acc Model) : List (SharedOp Acc Model) :=
  let _id := toString event.modIndex ++ "_" ++ toString tIndex
  let modelName := "lightGBM_model_" ++ _id ++ ".txt"
  let key := toString runs ++ "_" ++ toString maxDepth ++ "_" ++ strFloat featureFraction
  [.redisPut modelName o.model, .setReturn key o.acc, .setProcess key o.processTime,
    .setUpload key o.uploadTime, .setSd key o.sdTime]

def processesOf (event : Bundle) (tri : HyperParams) (outcomes : Nat -> Trained Acc Model) :
    List (List (SharedOp Acc Model)) :=
  (List.range event.threads).map fun t =>
    trainTree strFloat t event tri.maxDepth tri.featureFraction tri.numOfTrees (outcomes t)

/-- The shared steps of the loop over the triples, from a run on.  The processes of a run
are joined before the next run starts. -/
inductive RunsFrom (event : Bundle) (outcomes : Nat -> Nat -> Trained Acc Model) :
    Nat -> List HyperParams -> List (SharedOp Acc Model) -> Prop where
  | nil (r : Nat) : RunsFrom event outcomes r [] []
  | cons (r : Nat) (tri : HyperParams) {rest : List HyperParams}
      {now later : List (SharedOp Acc Model)}
      (hnow : Interleaved (processesOf strFloat event tri (outcomes r)) now)
      (hlater : RunsFrom event outcomes (r + 1) rest later) :
      RunsFrom event outcomes r (tri :: rest) (now ++ later)

/-- What `execute_body` returns. -/
structure BodyResult (Acc : Type) where
  returnDict : Dict String Acc
  exeTime : Int
  uploadTime : Int
  sdTime : Int

def Shared.bodyResult (s : Shared Acc Model) : BodyResult Acc where
  returnDict := s.returnDict
  exeTime := (Dict.values s.processDict).sum
  uploadTime := (Dict.values s.uploadDict).sum
  sdTime := (Dict.values s.sdDict).sum

/-!
## Results
-/

def putModel : SharedOp Acc Model -> Option (String × Model)
  | .redisPut name o => some (name, o)
  | _ => none

def overTrainings (event : Bundle) (f : Nat -> Nat -> Int) : Int :=
  ((List.range event.triples.length).flatMap fun r =>
    (List.range event.threads).map fun t => f r t).sum

/-- No result of the trainings is lost: the store holds as many models that they have put
as there are trainings, there is an accuracy of each, and the times are those of all. -/
structure NothingLost (event : Bundle) (outcomes : Nat -> Nat -> Trained Acc Model)
    (trace : List (SharedOp Acc Model)) (s : Shared Acc Model) : Prop where
  models : exists held : List (String × Model),
    held.length = event.triples.length * event.threads ∧ (held.map Prod.fst).Nodup ∧
      forall m, m ∈ held -> m ∈ trace.filterMap putModel ∧ s.store.lookup m.1 = some m.2
  accuracies : s.bodyResult.returnDict.keys.length = event.triples.length * event.threads
  exeTime : s.bodyResult.exeTime = overTrainings event fun r t => (outcomes r t).processTime
  uploadTime : s.bodyResult.uploadTime = overTrainings event fun r t => (outcomes r t).uploadTime
  sdTime : s.bodyResult.sdTime = overTrainings event fun r t => (outcomes r t).sdTime

/-!
## The names and the keys of a run
-/

section Runs

variable {strFloat : Rat -> String} {event : Bundle} {outcomes : Nat -> Nat -> Trained Acc Model}

theorem RunsFrom.mem {r : Nat} {triples : List HyperParams}
    {trace : List (SharedOp Acc Model)}
    (h : RunsFrom strFloat event outcomes r triples trace) {op : SharedOp Acc Model}
    (hop : op ∈ trace) :
    exists tri, tri ∈ triples ∧ exists r' t, t < event.threads ∧
      op ∈ trainTree strFloat t event tri.maxDepth tri.featureFraction tri.numOfTrees
        (outcomes r' t) := by
  induction h with
  | nil r => cases hop
  | cons r tri hnow hlater ih =>
      rcases List.mem_append.mp hop with hop | hop
      · rcases List.mem_flatten.mp (hnow.perm.mem_iff.mp hop) with ⟨steps, hsteps, hop⟩
        rcases List.mem_map.mp hsteps with ⟨t, ht, rfl⟩
        exact ⟨tri, List.mem_cons_self, r, t, List.mem_range.mp ht, hop⟩
      · rcases ih hop with ⟨tri', htri, hstep⟩
        exact ⟨tri', List.mem_cons_of_mem tri htri, hstep⟩

def modelName (event : Bundle) (tIndex : Nat) : String :=
  "lightGBM_model_" ++ (toString event.modIndex ++ "_" ++ toString tIndex) ++ ".txt"

def resultKey (strFloat : Rat -> String) (tri : HyperParams) : String :=
  toString tri.numOfTrees ++ "_" ++ toString tri.maxDepth ++ "_" ++
    strFloat tri.featureFraction

theorem RunsFrom.name_of_put {r : Nat} {triples : List HyperParams}
    {trace : List (SharedOp Acc Model)}
    (h : RunsFrom strFloat event outcomes r triples trace) {m : String × Model}
    (hm : m ∈ trace.filterMap putModel) :
    m.1 ∈ (List.range event.threads).map (modelName event) := by
  rcases List.mem_filterMap.mp hm with ⟨op, hop, hput⟩
  rcases h.mem hop with ⟨tri, _, r', t, ht, hstep⟩
  apply List.mem_map.mpr
  refine ⟨t, List.mem_range.mpr ht, ?_⟩
  unfold trainTree at hstep
  simp only [List.mem_cons, List.not_mem_nil, or_false] at hstep
  rcases hstep with rfl | rfl | rfl | rfl | rfl
  · cases hput
    rfl
  · cases hput
  · cases hput
  · cases hput
  · cases hput

theorem key_of_mem_returnDict {s : Shared Acc Model} {trace : List (SharedOp Acc Model)}
    {key : String} (h : key ∈ (s.after trace).returnDict.keys) :
    key ∈ s.returnDict.keys ∨ exists acc, SharedOp.setReturn key acc ∈ trace := by
  induction trace generalizing s with
  | nil => exact Or.inl h
  | cons op rest ih =>
      cases ih h with
      | inr hlater =>
          rcases hlater with ⟨acc, hacc⟩
          exact Or.inr ⟨acc, List.mem_cons_of_mem op hacc⟩
      | inl hnow =>
          cases op with
          | setReturn key' acc =>
              have hin : key ∈ (s.returnDict.insert key' acc).keys := hnow
              rw [← AList.mem_keys, AList.mem_insert] at hin
              cases hin with
              | inl heq =>
                  rw [heq]
                  exact Or.inr ⟨acc, List.mem_cons_self⟩
              | inr hold => exact Or.inl (AList.mem_keys.mp hold)
          | _ => exact Or.inl hnow

theorem RunsFrom.key_of_result {r : Nat} {triples : List HyperParams}
    {trace : List (SharedOp Acc Model)}
    (h : RunsFrom strFloat event outcomes r triples trace) {store : Dict String Model}
    {key : String} (hkey : key ∈ ((Shared.start store).after trace).returnDict.keys) :
    key ∈ triples.map (resultKey strFloat) := by
  cases key_of_mem_returnDict hkey with
  | inl hnone => cases hnone
  | inr hset =>
      rcases hset with ⟨acc, hop⟩
      rcases h.mem hop with ⟨tri, htri, r', t, _, hstep⟩
      apply List.mem_map.mpr
      refine ⟨tri, htri, ?_⟩
      unfold trainTree at hstep
      simp only [List.mem_cons, List.not_mem_nil, or_false] at hstep
      rcases hstep with hput | hreturn | hprocess | hupload | hsd
      · cases hput
      · cases hreturn
        rfl
      · cases hprocess
      · cases hupload
      · cases hsd

theorem NothingLost.models_le {trace : List (SharedOp Acc Model)} {s : Shared Acc Model}
    (hruns : RunsFrom strFloat event outcomes 0 event.triples trace)
    (h : NothingLost event outcomes trace s) :
    event.triples.length * event.threads ≤ event.threads := by
  rcases h.models with ⟨held, hlength, hnodup, hheld⟩
  have hsubset : held.map Prod.fst ⊆ (List.range event.threads).map (modelName event) := by
    intro name hname
    rcases List.mem_map.mp hname with ⟨m, hm, rfl⟩
    exact hruns.name_of_put (hheld m hm).1
  have hle := hnodup.length_le_of_subset hsubset
  rw [List.length_map, List.length_map, List.length_range, hlength] at hle
  exact hle

theorem NothingLost.accuracies_le {trace : List (SharedOp Acc Model)}
    {store : Dict String Model}
    (hruns : RunsFrom strFloat event outcomes 0 event.triples trace)
    (h : NothingLost event outcomes trace ((Shared.start store).after trace)) :
    event.triples.length * event.threads ≤ event.triples.length := by
  have hsubset : ((Shared.start store).after trace).returnDict.keys ⊆
      event.triples.map (resultKey strFloat) := fun _ hkey => hruns.key_of_result hkey
  have hle := (AList.keys_nodup _).length_le_of_subset hsubset
  rw [List.length_map] at hle
  rw [← h.accuracies]
  exact hle

theorem mul_le_one_of_le {m n : Nat} (hm : m * n ≤ m) (hn : m * n ≤ n) : m * n ≤ 1 := by
  rcases Nat.eq_zero_or_pos m with rfl | hmpos
  · rw [Nat.zero_mul]
    exact Nat.zero_le 1
  · rcases Nat.eq_zero_or_pos n with rfl | hnpos
    · exact Nat.zero_le 1
    · have hn1 : n ≤ 1 := Nat.le_of_mul_le_mul_left (by rw [Nat.mul_one]; exact hm) hmpos
      have hm1 : m ≤ 1 := Nat.le_of_mul_le_mul_right (by rw [Nat.one_mul]; exact hn) hnpos
      exact Nat.mul_le_mul hm1 hn1

theorem NothingLost.of_none {trace : List (SharedOp Acc Model)} {store : Dict String Model}
    (hruns : RunsFrom strFloat event outcomes 0 event.triples trace)
    (hnone : event.triples.length * event.threads = 0) :
    NothingLost event outcomes trace ((Shared.start store).after trace) := by
  have hsum : forall f, overTrainings event f = 0 := by
    intro f
    unfold overTrainings
    rcases Nat.mul_eq_zero.mp hnone with hruns | hthreads
    · rw [hruns]
      rfl
    · have hempty : ((List.range event.triples.length).flatMap fun r =>
          (List.range 0).map fun t => f r t) = [] :=
        List.flatMap_eq_nil_iff.mpr fun _ _ => rfl
      rw [hthreads, hempty]
      rfl
  have htrace : trace = [] := by
    apply List.eq_nil_iff_forall_not_mem.mpr
    intro op hop
    rcases hruns.mem hop with ⟨tri, htri, _, t, ht, _⟩
    have hpos := Nat.mul_pos (List.length_pos_of_mem htri) (Nat.zero_lt_of_lt ht)
    omega
  subst htrace
  constructor
  · exact ⟨[], hnone.symm, List.nodup_nil, fun m hm => by cases hm⟩
  · exact hnone.symm
  · exact (hsum _).symm
  · exact (hsum _).symm
  · exact (hsum _).symm

theorem NothingLost.of_one {trace : List (SharedOp Acc Model)} {store : Dict String Model}
    (hruns : RunsFrom strFloat event outcomes 0 event.triples trace)
    (hone : event.triples.length = 1) (hthreads : event.threads = 1) :
    NothingLost event outcomes trace ((Shared.start store).after trace) := by
  rcases List.length_eq_one_iff.mp hone with ⟨tri, htriples⟩
  have htrace : trace = trainTree strFloat 0 event tri.maxDepth tri.featureFraction
      tri.numOfTrees (outcomes 0 0) := by
    rw [htriples] at hruns
    cases hruns with
    | cons r tri hnow hlater =>
        cases hlater
        unfold processesOf at hnow
        rw [hthreads] at hnow
        rw [List.append_nil]
        exact hnow.eq_singleton
  have hsum : forall f, overTrainings event f = f 0 0 := by
    intro f
    unfold overTrainings
    rw [hone, hthreads]
    exact Int.add_zero _
  subst htrace
  constructor
  · refine ⟨[(modelName event 0, (outcomes 0 0).model)], ?_, List.nodup_singleton _, ?_⟩
    · rw [hone, hthreads]
      rfl
    · intro m hm
      rw [List.mem_singleton.mp hm]
      exact ⟨List.mem_cons_self, AList.lookup_insert store⟩
  · rw [hone, hthreads]
    rfl
  · rw [hsum]
    exact Int.add_zero _
  · rw [hsum]
    exact Int.add_zero _
  · rw [hsum]
    exact Int.add_zero _

end Runs
end Trainer

/-- The results of all trainings are kept exactly if there is at most one training. -/
theorem nothing_lost_iff {Acc Model : Type} (strFloat : Rat -> String) (event : Bundle)
    (outcomes : Nat -> Nat -> Trained Acc Model) (store : Dict String Model)
    (trace : List (SharedOp Acc Model))
    (hruns : RunsFrom strFloat event outcomes 0 event.triples trace) :
    NothingLost event outcomes trace ((Shared.start store).after trace) <->
      event.triples.length * event.threads ≤ 1 := by
  constructor
  · intro h
    exact mul_le_one_of_le (h.accuracies_le hruns) (h.models_le hruns)
  · intro hfew
    by_cases hnone : event.triples.length * event.threads = 0
    · exact NothingLost.of_none hruns hnone
    · have hone : event.triples.length * event.threads = 1 := by
        omega
      exact NothingLost.of_one hruns (Nat.eq_one_of_mul_eq_one_right hone)
        (Nat.eq_one_of_mul_eq_one_left hone)
def oneTraining : Bundle :=
  { bundleOf 1 [{ numOfTrees := 10, maxDepth := 10, featureFraction := 1 / 2 }] with threads := 1 }

def sameOutcome : Nat -> Nat -> Trained Nat Nat := fun _ _ =>
  { acc := 90, model := 7, processTime := 5, uploadTime := 2, sdTime := 1 }

theorem runsFrom_sequential {Acc Model : Type} (strFloat : Rat -> String) (event : Bundle)
    (outcomes : Nat -> Nat -> Trained Acc Model) (r : Nat) (triples : List HyperParams) :
    exists trace, RunsFrom strFloat event outcomes r triples trace := by
  induction triples generalizing r with
  | nil => exact ⟨[], RunsFrom.nil r⟩
  | cons tri rest ih =>
      rcases ih (r + 1) with ⟨later, hlater⟩
      exact ⟨_, RunsFrom.cons r tri (Interleaved.sequential _) hlater⟩

theorem nothing_lost_iff_one :
    exists trace, RunsFrom toString oneTraining sameOutcome 0 oneTraining.triples trace ∧
      NothingLost oneTraining sameOutcome trace ((Shared.start ∅).after trace) := by
  rcases runsFrom_sequential toString oneTraining sameOutcome 0 oneTraining.triples with
    ⟨trace, hruns⟩
  exact ⟨trace, hruns,
    (nothing_lost_iff toString oneTraining sameOutcome ∅ trace hruns).mpr (by decide)⟩

/-- A shipped bundle has two triples and six threads. -/
theorem not_nothing_lost_shipped :
    ¬ forall (strFloat : Rat -> String) (event : Bundle)
      (outcomes : Nat -> Nat -> Trained Nat Nat) (store : Dict String Nat) trace,
      RunsFrom strFloat event outcomes 0 event.triples trace ->
        NothingLost event outcomes trace ((Shared.start store).after trace) := by
  intro h
  let shipped := bundleOf 1
    [{ numOfTrees := 10, maxDepth := 10, featureFraction := 1 / 2 },
      { numOfTrees := 10, maxDepth := 10, featureFraction := 1 / 2 }]
  rcases runsFrom_sequential toString shipped sameOutcome 0 shipped.triples with ⟨trace, hruns⟩
  have hle := (h toString shipped sameOutcome ∅ trace hruns).models_le hruns
  exact absurd hle (by decide)

end Workflow
end Dmerge
