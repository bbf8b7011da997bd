import Mathlib.Logic.Function.Basic
import Dmerge.Foundation.Prog
import Dmerge.Foundation.Simulation

/-!
# Pages shared under names

Processes publish things under names that are never used twice, and attach what
others have published.  When the things are mappings of addresses to locations
of a memory, a process reads an address through the first mapping that it has
attached and that maps it, and keeps its own copy of the page.  When the things
are the pages themselves, nothing but the names is left: as long as the shared
locations are not written, the two systems cannot be told apart.
-/

namespace Dmerge
namespace Foundation

variable {name proc addr loc page kappa kappa' : Type}

/-!
## Names
-/

@[ext] structure NameTable (name proc kappa : Type) where
  published : name -> Option kappa
  /-- The names that will not be given out again. -/
  spent : name -> Prop
  owned : proc -> Option name
  /-- What a process has attached, if it takes part. -/
  joined : proc -> Option (List (name × kappa))

inductive NameAct (name proc kappa : Type) where
  | enter (p : proc)
  | publish (p : proc) (n : name) (x : kappa)
  | retell (p : proc) (n : name)
  | waste (n : name)
  /-- A thing is published that no process owns. -/
  | lend (n : name) (x : kappa)
  | reclaim (n : name)
  | attach (p : proc) (n : name) (x : kappa)
  | leave (p : proc)

/-- What is observed: a process is told its name, and what was published if that is
new, it has attached a name, or it has read an address. -/
inductive SharedObs (name proc addr page kappa : Type) where
  | named (p : proc) (n : name) (new : Option kappa)
  | joined (p : proc) (n : name)
  | read (p : proc) (a : addr) (v : Option page)
  deriving DecidableEq

def SharedObs.map (f : kappa -> kappa') :
    SharedObs name proc addr page kappa -> SharedObs name proc addr page kappa'
  | .named p n new => .named p n (new.map f)
  | .joined p n => .joined p n
  | .read p a v => .read p a v

namespace NameAct

def observed : NameAct name proc kappa -> List (SharedObs name proc addr page kappa)
  | .publish p n x => [.named p n (some x)]
  | .retell p n => [.named p n none]
  | .attach p n _ => [.joined p n]
  | _ => []

def map (f : kappa -> kappa') : NameAct name proc kappa -> NameAct name proc kappa'
  | .enter p => .enter p
  | .publish p n x => .publish p n (f x)
  | .retell p n => .retell p n
  | .waste n => .waste n
  | .lend n x => .lend n (f x)
  | .reclaim n => .reclaim n
  | .attach p n x => .attach p n (f x)
  | .leave p => .leave p

def Joins : NameAct name proc kappa -> Prop
  | .enter _ => True
  | .attach _ _ _ => True
  | _ => False

theorem observed_map (f : kappa -> kappa') (act : NameAct name proc kappa) :
    (act.map f).observed =
      (act.observed : List (SharedObs name proc addr page kappa)).map (SharedObs.map f) := by
  cases act <;> rfl

theorem map_map {kappa'' : Type} (f : kappa -> kappa') (g : kappa' -> kappa'')
    (act : NameAct name proc kappa) : (act.map f).map g = act.map fun x => g (f x) := by
  cases act <;> rfl

end NameAct

namespace NameTable

def map (f : kappa -> kappa') (s : NameTable name proc kappa) : NameTable name proc kappa' where
  published n := (s.published n).map f
  spent := s.spent
  owned := s.owned
  joined p := (s.joined p).map fun qs => qs.map fun q => (q.1, f q.2)

variable [DecidableEq name] [DecidableEq proc]

inductive Step (s : NameTable name proc kappa) :
    NameAct name proc kappa -> NameTable name proc kappa -> Prop where
  | enter (p : proc) (hout : s.joined p = none) :
      Step s (.enter p)
        { s with
            joined := Function.update s.joined p (some [])
            owned := Function.update s.owned p none }
  | publish (p : proc) (n : name) (x : kappa) (hin : (s.joined p).isSome)
      (hnone : s.owned p = none) (hnew : ¬ s.spent n) :
      Step s (.publish p n x)
        { s with
            published := Function.update s.published n (some x)
            spent := fun n' => n' = n ∨ s.spent n'
            owned := Function.update s.owned p (some n) }
  | retell (p : proc) (n : name) (howned : s.owned p = some n) : Step s (.retell p n) s
  | waste (n : name) :
      Step s (.waste n)
        { s with
            spent := fun n' => n' = n ∨ s.spent n' }
  | lend (n : name) (x : kappa) (hnew : ¬ s.spent n) :
      Step s (.lend n x)
        { s with
            published := Function.update s.published n (some x)
            spent := fun n' => n' = n ∨ s.spent n' }
  | reclaim (n : name) (hfree : forall p, s.owned p ≠ some n) :
      Step s (.reclaim n)
        { s with
            published := Function.update s.published n none }
  | attach (p : proc) (n : name) (x : kappa) (qs : List (name × kappa))
      (hx : s.published n = some x) (hqs : s.joined p = some qs) :
      Step s (.attach p n x)
        { s with
            joined := Function.update s.joined p (some (qs ++ [(n, x)])) }
  | leave (p : proc) (hin : (s.joined p).isSome) :
      Step s (.leave p)
        { s with
            published := fun n => if s.owned p = some n then none else s.published n
            joined := Function.update s.joined p none
            owned := Function.update s.owned p none }

section Map

variable {s s' : NameTable name proc kappa} (f : kappa -> kappa')

omit [DecidableEq name] [DecidableEq proc] in
@[simp] theorem published_map (n : name) : (s.map f).published n = (s.published n).map f := rfl

omit [DecidableEq name] [DecidableEq proc] in
@[simp] theorem joined_map (p : proc) :
    (s.map f).joined p = (s.joined p).map fun qs => qs.map fun q => (q.1, f q.2) := rfl

omit [DecidableEq name] [DecidableEq proc] in
theorem isSome_joined_map {p : proc} (h : (s.joined p).isSome) : ((s.map f).joined p).isSome := by
  rwa [joined_map, Option.isSome_map]

omit [DecidableEq proc] in
theorem published_update (n : name) (x : Option kappa) :
    (fun n' => (Function.update s.published n x n').map f) =
      Function.update (s.map f).published n (x.map f) :=
  Function.comp_update (Option.map f) s.published n x

omit [DecidableEq name] in
theorem joined_update (p : proc) (qs : Option (List (name × kappa))) :
    (fun p' => (Function.update s.joined p qs p').map
        fun qs : List (name × kappa) => qs.map fun q => (q.1, f q.2)) =
      Function.update (s.map f).joined p (qs.map fun qs => qs.map fun q => (q.1, f q.2)) :=
  Function.comp_update (Option.map _) s.joined p qs

theorem step_map {act : NameAct name proc kappa} (h : s.Step act s') :
    (s.map f).Step (act.map f) (s'.map f) := by
  cases h with
  | enter p hout =>
      have hmapped : (s.map f).joined p = none := by
        rw [joined_map, hout, Option.map_none]
      unfold map
      rw [joined_update f p (some [])]
      exact Step.enter p hmapped
  | publish p n x hin hnone hnew =>
      unfold map
      rw [published_update f n (some x)]
      exact Step.publish p n (f x) (isSome_joined_map f hin) hnone hnew
  | retell p n howned => exact Step.retell p n howned
  | waste n => exact Step.waste n
  | lend n x hnew =>
      unfold map
      rw [published_update f n (some x)]
      exact Step.lend n (f x) hnew
  | reclaim n hfree =>
      unfold map
      rw [published_update f n none]
      exact Step.reclaim n hfree
  | attach p n x qs hx hqs =>
      have hmapped : (s.map f).published n = some (f x) := by
        rw [published_map, hx, Option.map_some]
      have hjoined : (s.map f).joined p = some (qs.map fun q => (q.1, f q.2)) := by
        rw [joined_map, hqs, Option.map_some]
      unfold map
      rw [joined_update f p (some (qs ++ [(n, x)])), Option.map_some, List.map_append]
      exact Step.attach p n (f x) _ hmapped hjoined
  | leave p hin =>
      have hleft : (fun n => (if s.owned p = some n then none else s.published n).map f) =
          fun n => if s.owned p = some n then none else (s.published n).map f := by
        funext n
        split <;> rfl
      unfold map
      rw [joined_update f p none, hleft]
      exact Step.leave p (isSome_joined_map f hin)

end Map

theorem Step.joined_eq {s s' : NameTable name proc kappa} {act : NameAct name proc kappa}
    (h : s.Step act s') (hact : ¬ act.Joins) {p : proc} (hin : (s'.joined p).isSome) :
    s'.joined p = s.joined p := by
  cases h with
  | enter p' _ => exact absurd True.intro hact
  | attach p' n x qs _ _ => exact absurd True.intro hact
  | leave p' _ =>
      have hne : p ≠ p' := by
        rintro rfl
        simp only [Function.update_self] at hin
        cases hin
      exact Function.update_of_ne hne _ _
  | publish p' n x _ _ _ => rfl
  | retell p' n _ => rfl
  | waste n => rfl
  | lend n x _ => rfl
  | reclaim n _ => rfl

structure Kept (s : NameTable name proc kappa) : Prop where
  published : forall p n, s.owned p = some n -> (s.published n).isSome
  spent : forall p n, s.owned p = some n -> s.spent n
  unique : forall p q n, s.owned p = some n -> s.owned q = some n -> p = q

theorem Step.kept {s s' : NameTable name proc kappa} {act : NameAct name proc kappa}
    (h : s.Step act s') (hk : s.Kept) : s'.Kept := by
  -- A name that a process gives up was its own.
  have hdrop : forall (p q : proc) (n : name), Function.update s.owned p none q = some n ->
      q ≠ p ∧ s.owned q = some n := by
    intro p q n hq
    have hne : q ≠ p := by
      rintro rfl
      rw [Function.update_self] at hq
      cases hq
    rw [Function.update_of_ne hne] at hq
    exact ⟨hne, hq⟩
  cases h with
  | enter p _ =>
      exact ⟨fun q n hq => hk.published q n (hdrop p q n hq).2,
        fun q n hq => hk.spent q n (hdrop p q n hq).2,
        fun q q' n hq hq' => hk.unique q q' n (hdrop p q n hq).2 (hdrop p q' n hq').2⟩
  | publish p n x hin hnone hnew =>
      have hother : forall q n', Function.update s.owned p (some n) q = some n' ->
          q = p ∧ n' = n ∨ q ≠ p ∧ n' ≠ n ∧ s.owned q = some n' := by
        intro q n' hq
        by_cases hqp : q = p
        · rw [hqp, Function.update_self] at hq
          exact Or.inl ⟨hqp, (Option.some.inj hq).symm⟩
        · rw [Function.update_of_ne hqp] at hq
          refine Or.inr ⟨hqp, ?_, hq⟩
          rintro rfl
          exact hnew (hk.spent q n' hq)
      constructor
      · intro q n' hq
        rcases hother q n' hq with ⟨_, rfl⟩ | ⟨_, hne, hold⟩
        · simp only [Function.update_self]
          rfl
        · simp only [Function.update_of_ne hne]
          exact hk.published q n' hold
      · intro q n' hq
        rcases hother q n' hq with ⟨_, hn⟩ | ⟨_, _, hold⟩
        · exact Or.inl hn
        · exact Or.inr (hk.spent q n' hold)
      · intro q q' n' hq hq'
        rcases hother q n' hq with ⟨hqp, hn⟩ | ⟨_, hne, hold⟩
        · rcases hother q' n' hq' with ⟨hqp', _⟩ | ⟨_, hne', _⟩
          · rw [hqp, hqp']
          · exact absurd hn hne'
        · rcases hother q' n' hq' with ⟨_, hn'⟩ | ⟨_, _, hold'⟩
          · exact absurd hn' hne
          · exact hk.unique q q' n' hold hold'
  | retell p n _ => exact hk
  | waste n =>
      exact ⟨hk.published, fun q n' hq => Or.inr (hk.spent q n' hq), hk.unique⟩
  | lend n x hnew =>
      refine ⟨fun q n' hq => ?_, fun q n' hq => Or.inr (hk.spent q n' hq), hk.unique⟩
      have hne : n' ≠ n := by
        rintro rfl
        exact hnew (hk.spent q n' hq)
      simp only [Function.update_of_ne hne]
      exact hk.published q n' hq
  | reclaim n hfree =>
      refine ⟨fun q n' hq => ?_, hk.spent, hk.unique⟩
      have hne : n' ≠ n := by
        rintro rfl
        exact hfree q hq
      simp only [Function.update_of_ne hne]
      exact hk.published q n' hq
  | attach p n x qs _ _ => exact ⟨hk.published, hk.spent, hk.unique⟩
  | leave p _ =>
      refine ⟨fun q n hq => ?_, fun q n hq => hk.spent q n (hdrop p q n hq).2,
        fun q q' n hq hq' => hk.unique q q' n (hdrop p q n hq).2 (hdrop p q' n hq').2⟩
      rcases hdrop p q n hq with ⟨hne, hold⟩
      have howned : s.owned p ≠ some n := fun hp => hne (hk.unique q p n hold hp)
      simp only [if_neg howned]
      exact hk.published q n hold

theorem Step.attached {s s' : NameTable name proc kappa} {p : proc} {n : name} {x : kappa}
    (h : s.Step (.attach p n x) s') : s.published n = some x := by
  cases h with
  | attach _ _ _ qs hx hqs => exact hx

structure Binds (s : NameTable name proc kappa) (n : name) (x : kappa) : Prop where
  spent : s.spent n
  published : forall y, s.published n = some y -> y = x

theorem Step.binds_published {s s' : NameTable name proc kappa} {p : proc} {n : name} {x : kappa}
    (h : s.Step (.publish p n x) s') : s'.Binds n x := by
  cases h with
  | publish _ _ _ hin hnone hnew =>
      refine ⟨Or.inl rfl, fun y hy => ?_⟩
      simp only [Function.update_self] at hy
      exact (Option.some.inj hy).symm

theorem Step.binds {s s' : NameTable name proc kappa} {act : NameAct name proc kappa}
    (h : s.Step act s') {n : name} {x : kappa} (hb : s.Binds n x) : s'.Binds n x := by
  -- A name that is given out was not spent.
  have hnew : forall (n' : name) (x' : kappa), ¬ s.spent n' ->
      forall y, Function.update s.published n' (some x') n = some y -> y = x := by
    intro n' x' hfresh y hy
    have hne : n ≠ n' := by
      rintro rfl
      exact hfresh hb.spent
    rw [Function.update_of_ne hne] at hy
    exact hb.published y hy
  cases h with
  | enter p _ => exact ⟨hb.spent, hb.published⟩
  | publish p n' x' _ _ hfresh => exact ⟨Or.inr hb.spent, hnew n' x' hfresh⟩
  | retell p n' _ => exact hb
  | waste n' => exact ⟨Or.inr hb.spent, hb.published⟩
  | lend n' x' hfresh => exact ⟨Or.inr hb.spent, hnew n' x' hfresh⟩
  | reclaim n' _ =>
      refine ⟨hb.spent, fun y hy => ?_⟩
      by_cases hn : n = n'
      · simp only [hn, Function.update_self] at hy
        cases hy
      · simp only [Function.update_of_ne hn] at hy
        exact hb.published y hy
  | attach p n' x' qs _ _ => exact ⟨hb.spent, hb.published⟩
  | leave p _ =>
      refine ⟨hb.spent, fun y hy => hb.published y ?_⟩
      simp only at hy
      split at hy
      · cases hy
      · exact hy

end NameTable

/-!
## Mappings of a memory
-/

@[ext] structure Mapping (addr loc : Type) where
  /-- The addresses that a process loses its own pages at when it attaches the mapping. -/
  covers : addr -> Bool
  target : addr -> Option loc

def Mapping.contents (x : Mapping addr loc) (memory : loc -> page) (a : addr) : Option page :=
  (x.target a).map memory

@[ext] structure SharedPages (name proc addr loc page : Type) where
  names : NameTable name proc (Mapping addr loc)
  /-- The pages that a process has a copy of. -/
  copies : proc -> addr -> Option page
  memory : loc -> page

namespace SharedPages

variable (s : SharedPages name proc addr loc page)

/-- The location that a process finds at an address. -/
def found (p : proc) (a : addr) : Option loc :=
  ((s.names.joined p).getD []).findSome? fun q => q.2.target a

def view (p : proc) (a : addr) : Option page :=
  (s.copies p a).or ((s.found p a).map s.memory)

def reload (p : proc) (x : Mapping addr loc) (ahead : addr -> Bool) (a : addr) : Option page :=
  if x.covers a = true then
    if ahead a = true then x.contents s.memory a else none
  else s.copies p a

def Shares (l : loc) : Prop :=
  (exists n x a, s.names.published n = some x ∧ x.target a = some l) ∨
    exists p qs q a, s.names.joined p = some qs ∧ q ∈ qs ∧ q.2.target a = some l

def withContents (x : Mapping addr loc) : Mapping addr loc × (addr -> Option page) :=
  (x, x.contents s.memory)

variable [DecidableEq name] [DecidableEq proc] [DecidableEq addr] [DecidableEq loc]

/-- One step.  In a frozen system a shared location is not written, a process does not
write to its copies, and nothing is read ahead. -/
inductive Step (frozen : Prop) (s : SharedPages name proc addr loc page) :
    List (SharedObs name proc addr page (Mapping addr loc × (addr -> Option page))) ->
      SharedPages name proc addr loc page -> Prop where
  | naming {act : NameAct name proc (Mapping addr loc)} {names'} (hact : ¬ act.Joins)
      (hstep : s.names.Step act names') :
      Step frozen s (act.map s.withContents).observed { s with names := names' }
  | enter {p : proc} {names'} (hstep : s.names.Step (.enter p) names') :
      Step frozen s []
        { s with
            names := names'
            copies := Function.update s.copies p fun _ => none }
  | attach {p : proc} {n : name} {x : Mapping addr loc} {names'} (ahead : addr -> Bool)
      (hstep : s.names.Step (.attach p n x) names')
      (hfrozen : frozen -> forall a, x.covers a = true -> ahead a = false) :
      Step frozen s [.joined p n]
        { s with
            names := names'
            copies := Function.update s.copies p (s.reload p x ahead) }
  | read (p : proc) (a : addr) (hin : (s.names.joined p).isSome) :
      Step frozen s [.read p a (s.view p a)]
        { s with
            copies := Function.update s.copies p
              (Function.update (s.copies p) a (s.view p a)) }
  | store (p : proc) (a : addr) (v : page) (hview : (s.view p a).isSome)
      (hfrozen : ¬ frozen) :
      Step frozen s []
        { s with
            copies := Function.update s.copies p (Function.update (s.copies p) a (some v)) }
  | write (l : loc) (v : page) (hfrozen : frozen -> ¬ s.Shares l) :
      Step frozen s []
        { s with
            memory := Function.update s.memory l v }

theorem Step.kept {frozen : Prop} {s s' : SharedPages name proc addr loc page} {now}
    (h : s.Step frozen now s') (hk : s.names.Kept) : s'.names.Kept := by
  cases h with
  | naming hact hstep => exact hstep.kept hk
  | enter hstep => exact hstep.kept hk
  | attach ahead hstep hfrozen => exact hstep.kept hk
  | read p a hin => exact hk
  | store p a v hview hfrozen => exact hk
  | write l v hfrozen => exact hk

end SharedPages

/-!
## Snapshots
-/

/-- A store of snapshots: what is published are the pages themselves. -/
abbrev Snapshots (name proc addr page : Type) := NameTable name proc (addr -> Option page)

def Snapshots.seen (s : Snapshots name proc addr page) (p : proc) (a : addr) : Option page :=
  ((s.joined p).getD []).findSome? fun q => q.2 a

inductive Snapshots.Step [DecidableEq name] [DecidableEq proc]
    (s : Snapshots name proc addr page) :
    List (SharedObs name proc addr page (addr -> Option page)) ->
      Snapshots name proc addr page -> Prop where
  | naming {act s'} (hstep : NameTable.Step s act s') : Snapshots.Step s act.observed s'
  | read (p : proc) (a : addr) (hin : (s.joined p).isSome) :
      Snapshots.Step s [.read p a (s.seen p a)] s

theorem Snapshots.Step.binds [DecidableEq name] [DecidableEq proc]
    {s s' : Snapshots name proc addr page} {now} (h : Snapshots.Step s now s') {n : name}
    {x : addr -> Option page} (hb : NameTable.Binds s n x) : NameTable.Binds s' n x := by
  cases h with
  | naming hstep => exact hstep.binds hb
  | read p a hin => exact hb

theorem Snapshots.binds_of_named [DecidableEq name] [DecidableEq proc]
    {s t : Snapshots name proc addr page} {trace} (hrun : Observed Snapshots.Step s trace t)
    {p : proc} {n : name} {x : addr -> Option page}
    (hnamed : SharedObs.named p n (some x) ∈ trace) : NameTable.Binds t n x := by
  have hkept : forall (s : Snapshots name proc addr page) now s',
      NameTable.Binds s n x -> Snapshots.Step s now s' -> NameTable.Binds s' n x :=
    fun s now s' hb h => h.binds hb
  induction hrun with
  | refl s => cases hnamed
  | next hstep hrest ih =>
      rcases List.mem_append.mp hnamed with hnow | hlater
      · refine hrest.preserves hkept ?_
        cases hstep with
        | @naming act s' hname =>
            cases act with
            | publish p' n' x' =>
                cases List.mem_singleton.mp hnow
                exact hname.binds_published
            | retell p' n' => cases List.mem_singleton.mp hnow
            | attach p' n' x' => cases List.mem_singleton.mp hnow
            | enter p' => cases hnow
            | waste n' => cases hnow
            | lend n' x' => cases hnow
            | reclaim n' => cases hnow
            | leave p' => cases hnow
        | read p' a hin => cases List.mem_singleton.mp hnow
      · exact ih hlater

namespace SharedPages

/-- What is shared, as the memory has it. -/
def snapshots (s : SharedPages name proc addr loc page) : Snapshots name proc addr page :=
  s.names.map fun x => x.contents s.memory

def Coherent (s : SharedPages name proc addr loc page) : Prop :=
  forall p a v, (s.names.joined p).isSome -> s.copies p a = some v ->
    (s.found p a).map s.memory = some v

section Frozen

variable {s s' : SharedPages name proc addr loc page} {p : proc} {a : addr}

theorem Coherent.view_eq (h : Coherent s) (hin : (s.names.joined p).isSome) :
    s.view p a = (s.found p a).map s.memory := by
  unfold view
  cases hcopy : s.copies p a with
  | none => rw [Option.none_or]
  | some v => rw [h p a v hin hcopy, Option.some_or]

theorem found_eq_seen (s : SharedPages name proc addr loc page) (p : proc) (a : addr) :
    (s.found p a).map s.memory = s.snapshots.seen p a := by
  unfold found Snapshots.seen snapshots
  rw [NameTable.joined_map]
  cases s.names.joined p with
  | none => rfl
  | some qs =>
      rw [Option.map_some, Option.getD_some, Option.getD_some]
      induction qs with
      | nil => rfl
      | cons q rest ih =>
          rw [List.map_cons, List.findSome?_cons, List.findSome?_cons]
          simp only [Mapping.contents]
          cases q.2.target a with
          | some l => rfl
          | none => exact ih

variable [DecidableEq name] [DecidableEq proc] [DecidableEq addr] [DecidableEq loc]
variable {names' : NameTable name proc (Mapping addr loc)}

omit [DecidableEq addr] [DecidableEq loc] in
theorem found_attach {n : name} {x : Mapping addr loc}
    (hstep : s.names.Step (.attach p n x) s'.names) :
    s'.found p a = (s.found p a).or (x.target a) := by
  unfold found
  generalize s'.names = names' at hstep
  cases hstep with
  | attach _ _ _ qs hx hqs =>
      simp only [Function.update_self, hqs, Option.getD_some, List.findSome?_append,
        List.findSome?_cons, List.findSome?_nil]
      cases x.target a <;> rfl

omit [DecidableEq addr] [DecidableEq loc] in
theorem Coherent.naming (h : Coherent s) {act : NameAct name proc (Mapping addr loc)}
    (hact : ¬ act.Joins) (hstep : s.names.Step act names') :
    Coherent { s with names := names' } := by
  intro p a v hin hcopy
  have hsame : names'.joined p = s.names.joined p := hstep.joined_eq hact hin
  have hold : (s.names.joined p).isSome := by
    rw [← hsame]
    exact hin
  have hfound : found { s with names := names' } p a = s.found p a := by
    unfold found
    rw [hsame]
  rw [hfound]
  exact h p a v hold hcopy

omit [DecidableEq addr] [DecidableEq loc] in
theorem Coherent.enter (h : Coherent s) (hstep : s.names.Step (.enter p) names') :
    Coherent
      { s with
          names := names'
          copies := Function.update s.copies p fun _ => none } := by
  cases hstep with
  | enter _ hout =>
      intro p' a v hin hcopy
      by_cases hp : p' = p
      · subst hp
        simp only [Function.update_self] at hcopy
        cases hcopy
      · simp only [Function.update_of_ne hp] at hin hcopy
        have hfound := h p' a v hin hcopy
        unfold found at hfound ⊢
        simp only [Function.update_of_ne hp]
        exact hfound

omit [DecidableEq addr] [DecidableEq loc] in
theorem Coherent.attach (h : Coherent s) {n : name} {x : Mapping addr loc}
    {ahead : addr -> Bool} (hstep : s.names.Step (.attach p n x) names')
    (hlazy : forall a, x.covers a = true -> ahead a = false) :
    Coherent
      { s with
          names := names'
          copies := Function.update s.copies p (s.reload p x ahead) } := by
  cases hstep with
  | attach _ _ _ qs hx hqs =>
      intro p' a v hin hcopy
      by_cases hp : p' = p
      · subst hp
        simp only [Function.update_self, reload] at hcopy
        have hkept : s.copies p' a = some v := by
          by_cases hcovers : x.covers a = true
          · rw [if_pos hcovers, hlazy a hcovers, if_neg (by decide)] at hcopy
            cases hcopy
          · rwa [if_neg hcovers] at hcopy
        have hold : (s.names.joined p').isSome := by
          rw [hqs]
          rfl
        have hfound := h p' a v hold hkept
        unfold found at hfound ⊢
        simp only [Function.update_self, Option.getD_some, List.findSome?_append]
        rw [hqs, Option.getD_some] at hfound
        rcases Option.map_eq_some_iff.mp hfound with ⟨l, hl, hv⟩
        rw [hl, Option.some_or, Option.map_some, hv]
      · simp only [Function.update_of_ne hp] at hin hcopy
        have hfound := h p' a v hin hcopy
        unfold found at hfound ⊢
        simp only [Function.update_of_ne hp]
        exact hfound

omit [DecidableEq name] [DecidableEq loc] in
theorem Coherent.read (h : Coherent s) (hin : (s.names.joined p).isSome) :
    Coherent
      { s with
          copies := Function.update s.copies p (Function.update (s.copies p) a (s.view p a)) } := by
  intro p' a' v hin' hcopy
  by_cases hp : p' = p
  · subst hp
    simp only [Function.update_self] at hcopy
    by_cases ha : a' = a
    · subst ha
      rw [Function.update_self, h.view_eq hin] at hcopy
      exact hcopy
    · rw [Function.update_of_ne ha] at hcopy
      exact h p' a' v hin' hcopy
  · simp only [Function.update_of_ne hp] at hcopy
    exact h p' a' v hin' hcopy

omit [DecidableEq name] [DecidableEq proc] [DecidableEq addr] in
theorem map_found_write {l : loc} (v : page) (hshares : ¬ s.Shares l) :
    (s.found p a).map (Function.update s.memory l v) = (s.found p a).map s.memory := by
  cases hfound : s.found p a with
  | none => rfl
  | some l' =>
      have hne : l' ≠ l := by
        rintro rfl
        apply hshares
        unfold found at hfound
        cases hjoined : s.names.joined p with
        | none =>
            rw [hjoined] at hfound
            cases hfound
        | some qs =>
            rw [hjoined, Option.getD_some] at hfound
            rcases List.exists_of_findSome?_eq_some hfound with ⟨q, hq, htarget⟩
            exact Or.inr ⟨p, qs, q, a, hjoined, hq, htarget⟩
      rw [Option.map_some, Option.map_some, Function.update_of_ne hne]

omit [DecidableEq name] [DecidableEq proc] [DecidableEq addr] in
theorem contents_write {x : Mapping addr loc} {l : loc} (v : page)
    (hx : forall a, x.target a ≠ some l) :
    x.contents (Function.update s.memory l v) = x.contents s.memory := by
  funext a
  unfold Mapping.contents
  cases htarget : x.target a with
  | none => rfl
  | some l' =>
      have hne : l' ≠ l := by
        rintro rfl
        exact hx a htarget
      rw [Option.map_some, Option.map_some, Function.update_of_ne hne]

omit [DecidableEq name] [DecidableEq proc] [DecidableEq addr] in
theorem snapshots_write {l : loc} (v : page) (hshares : ¬ s.Shares l) :
    snapshots { s with memory := Function.update s.memory l v } = s.snapshots := by
  have hpublished : forall n, (s.names.published n).map
      (fun x => x.contents (Function.update s.memory l v)) =
        (s.names.published n).map fun x => x.contents s.memory := by
    intro n
    apply Option.map_congr
    intro x hx
    exact contents_write v fun a ha => hshares (Or.inl ⟨n, x, a, hx, ha⟩)
  have hjoined : forall p, (s.names.joined p).map
      (fun qs => qs.map fun q => (q.1, q.2.contents (Function.update s.memory l v))) =
        (s.names.joined p).map fun qs => qs.map fun q => (q.1, q.2.contents s.memory) := by
    intro p
    apply Option.map_congr
    intro qs hqs
    apply List.map_congr_left
    intro q hq
    rw [contents_write v fun a ha => hshares (Or.inr ⟨p, qs, q, a, hqs, hq, ha⟩)]
  unfold snapshots NameTable.map
  simp only [hpublished, hjoined]

theorem Step.snapshots {now} (h : Step True s now s') (hc : Coherent s) :
    Coherent s' ∧ Observed Snapshots.Step s.snapshots (now.map (SharedObs.map Prod.snd))
      s'.snapshots := by
  cases h with
  | @naming act names' hact hstep =>
      refine ⟨hc.naming hact hstep, ?_⟩
      have hnow : ((act.map s.withContents).observed.map (SharedObs.map Prod.snd) :
          List (SharedObs name proc addr page (addr -> Option page))) =
            (act.map fun x => x.contents s.memory).observed := by
        rw [← NameAct.observed_map, NameAct.map_map]
        rfl
      rw [hnow]
      exact Observed.single (.naming (NameTable.step_map _ hstep))
  | @enter p names' hstep =>
      exact ⟨hc.enter hstep, Observed.single (.naming (NameTable.step_map _ hstep))⟩
  | @attach p n x names' ahead hstep hfrozen =>
      exact ⟨hc.attach hstep (hfrozen True.intro),
        Observed.single (.naming (NameTable.step_map _ hstep))⟩
  | read p a hin =>
      refine ⟨hc.read hin, ?_⟩
      have hin' : (s.snapshots.joined p).isSome := NameTable.isSome_joined_map _ hin
      have hread := Snapshots.Step.read p a hin'
      rw [← found_eq_seen, ← hc.view_eq hin] at hread
      exact Observed.single hread
  | store p a v hview hfrozen => exact absurd True.intro hfrozen
  | write l v hfrozen =>
      have hshares := hfrozen True.intro
      refine ⟨fun p a v' hin hcopy => ?_, ?_⟩
      · exact (map_found_write v hshares).trans (hc p a v' hin hcopy)
      · rw [snapshots_write v hshares]
        exact Observed.refl _

theorem Step.snapshots_of_run {t : SharedPages name proc addr loc page} {trace}
    (hrun : Observed (Step True) s trace t) (hc : Coherent s) :
    Observed Snapshots.Step s.snapshots (trace.map (SharedObs.map Prod.snd)) t.snapshots :=
  Observed.simulated (fun _ _ _ hc hs => hs.snapshots hc) hrun hc

end Frozen
end SharedPages

/-!
## Programs that read pages
-/

/-- The only call is the read of a page. -/
abbrev readSig (addr page : Type) : Signature where
  Op := addr
  Res _ := page

abbrev ReadProg (addr page alpha : Type) := Prog (readSig addr page) alpha

/-- What a program returns that finds its pages in a table, if it misses none. -/
def ReadProg.readFrom {alpha : Type} (contents : addr -> Option page) :
    ReadProg addr page alpha -> Option alpha
  | .ret v => some v
  | .panic _ => none
  | .call a k => (contents a).bind fun x => ReadProg.readFrom contents (k x)

theorem ReadProg.readFrom_mono {alpha : Type} {contents contents' : addr -> Option page}
    (h : forall a x, contents a = some x -> contents' a = some x)
    {p : ReadProg addr page alpha} {v : alpha} (hv : p.readFrom contents = some v) :
    p.readFrom contents' = some v := by
  induction p with
  | ret w => exact hv
  | panic msg => cases hv
  | call a k ih =>
      rcases Option.bind_eq_some_iff.mp hv with ⟨x, hx, hrest⟩
      exact Option.bind_eq_some_iff.mpr ⟨x, h a x hx, ih x hrest⟩

end Foundation
end Dmerge
