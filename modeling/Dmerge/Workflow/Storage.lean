import Dmerge.Foundation.Run
import Dmerge.Workflow.WordCount

/-!
# Word counts through external storage

Any number of workflows count the words of one text at the same time.  They
share a store, and their handlers go on one access to the store after the other,
in any order.  Every mapper puts its counts under the same key.
-/

namespace Dmerge
namespace Workflow

open Foundation Prog

/-- The text, and `MAPPER_NUM`. -/
structure Deployment where
  lines : List String
  mapperNum : Nat
  positive : 1 ≤ mapperNum

inductive Role where
  | splitter (wf : String)
  | mapper (wf : String) (id : Nat)
  | reducer (wf : String) (order : List Nat)
  deriving DecidableEq, Repr

structure Job where
  role : Role
  code : Prog storageSig Done

structure Pipeline where
  store : Dict String Value
  jobs : List Job

inductive PipeAct where
  | split (wf : String)
  | map (wf : String) (id : Nat)
  /-- The reducer starts on the events of the mappers, in the order in which they came. -/
  | reduce (wf : String) (order : List Nat)
  | resume (j : Nat)
  deriving DecidableEq, Repr

/-- What is seen of a run: a mapper puts its counts, a reducer gets some. -/
inductive PipeEvent where
  | wrote (wf : String) (id : Nat)
  | read (wf : String)
  deriving DecidableEq, Repr

def Role.reducerOf : Role -> Option String
  | .reducer wf _ => some wf
  | _ => none

def Job.event? (job : Job) : Option WordMeta :=
  match job.code with
  | ret (.event m) => some m
  | _ => none

def answer : (o : StorageOp) -> Dict String Value -> o.Res × Dict String Value
  | .redisGet k, store => (store.lookup k, store)
  | .redisPut k v, store => ((), store.insert k v)

def eventsOf : Role -> StorageOp -> List PipeEvent
  | .mapper wf id, .redisPut _ _ => [.wrote wf id]
  | .reducer wf _, .redisGet _ => [.read wf]
  | _, _ => []

namespace Pipeline

def init : Pipeline where
  store := ∅
  jobs := []

def eventOf (s : Pipeline) (role : Role) : Option WordMeta :=
  s.jobs.findSome? fun job => if job.role = role then job.event? else none

def start (s : Pipeline) (role : Role) (code : Prog storageSig Done) : Pipeline :=
  { s with jobs := s.jobs ++ [{ role := role, code := code }] }

def step (t : Text) (d : Deployment) (s : Pipeline) :
    PipeAct -> Option (Pipeline × List PipeEvent)
  | .split wf =>
      if .splitter wf ∉ s.jobs.map Job.role then
        some (s.start (.splitter wf) (splitterEs d.lines d.mapperNum wf), [])
      else none
  | .map wf id =>
      match s.eventOf (.splitter wf) with
      | none => none
      | some m =>
          if id < d.mapperNum ∧ .mapper wf id ∉ s.jobs.map Job.role then
            some (s.start (.mapper wf id) (mapperEs t id m), [])
          else none
  | .reduce wf order =>
      match order.mapM fun id => s.eventOf (.mapper wf id) with
      | none => none
      | some metas =>
          if order.Perm (List.range d.mapperNum) ∧
              some wf ∉ s.jobs.map fun job => job.role.reducerOf then
            some (s.start (.reducer wf order) (reducerEs metas), [])
          else none
  | .resume j =>
      match s.jobs[j]? with
      | some { role := role, code := call o k } =>
          some
            ({ store := (answer o s.store).2,
               jobs := s.jobs.set j { role := role, code := k (answer o s.store).1 } },
              eventsOf role o)
      | _ => none

end Pipeline

/-!
## What the reducers find
-/

def lastWrote : Option Nat -> List PipeEvent -> Option Nat
  | last, [] => last
  | _, .wrote _ id :: rest => lastWrote (some id) rest
  | last, .read _ :: rest => lastWrote last rest

/-- The mappers, of any workflow, that had put their counts last whenever the reducer of a
workflow got some. -/
def found (wf : String) : Option Nat -> List PipeEvent -> List Nat
  | _, [] => []
  | _, .wrote _ id :: rest => found wf (some id) rest
  | last, .read wf' :: rest => (if wf' = wf then last.toList else []) ++ found wf last rest

theorem lastWrote_append (last : Option Nat) (past later : List PipeEvent) :
    lastWrote last (past ++ later) = lastWrote (lastWrote last past) later := by
  induction past generalizing last with
  | nil => rfl
  | cons e rest ih =>
      cases e with
      | wrote wf id => exact ih (some id)
      | read wf => exact ih last

theorem found_append (wf : String) (last : Option Nat) (past later : List PipeEvent) :
    found wf last (past ++ later) =
      found wf last past ++ found wf (lastWrote last past) later := by
  induction past generalizing last with
  | nil => rfl
  | cons e rest ih =>
      cases e with
      | wrote wf' id => exact ih (some id)
      | read wf' =>
          simp only [List.cons_append, found, lastWrote, List.append_assoc]
          rw [ih last]

/-!
## The invariant
-/

namespace Deployment

def chunks (d : Deployment) : List (List String) := splitterExecuteBody d.lines d.mapperNum

def chunk (d : Deployment) (id : Nat) : List String := d.chunks.getD id []

def countsOf (d : Deployment) (t : Text) (id : Nat) : Value :=
  .counts (mapperExecuteBody t (d.chunk id))

def HasText (d : Deployment) (store : Dict String Value) : Prop :=
  store.lookup splitterOutPath = some (.chunks d.chunks)

end Deployment

def splitterMeta (wf : String) : WordMeta where
  wfId := wf
  s3ObjKey := some splitterOutPath
  data := none

def mapperMeta (wf : String) : WordMeta where
  wfId := wf
  s3ObjKey := some mapperOutPath
  data := none

def JobOk (t : Text) (d : Deployment) (store : Dict String Value) (past : List PipeEvent) :
    Role -> Prog storageSig Done -> Prop
  | .splitter wf, p =>
      p = splitterEs d.lines d.mapperNum wf ∨
        p = ret (.event (splitterMeta wf)) ∧ d.HasText store
  | .mapper wf id, p =>
      id < d.mapperNum ∧ d.HasText store ∧
        (p = mapperEs t id (splitterMeta wf) ∨
          p = countChunk t id (splitterMeta wf) (.chunks d.chunks) ∨
            p = ret (.event (mapperMeta wf)) ∧ (lastWrote none past).isSome)
  | .reducer wf order, p =>
      order.Perm (List.range d.mapperNum) ∧ (lastWrote none past).isSome ∧
        exists metas ce, (forall m, m ∈ metas -> m.s3ObjKey = some mapperOutPath) ∧
          p = fetchAll metas ((found wf none past).map (d.countsOf t)) >>= sumUp ce

structure PipeInv (t : Text) (d : Deployment) (s : Pipeline) (past : List PipeEvent) : Prop where
  counts : s.store.lookup mapperOutPath = (lastWrote none past).map (d.countsOf t)
  jobs : forall (j : Nat) (job : Job), s.jobs[j]? = some job -> JobOk t d s.store past job.role job.code
  /-- A workflow has one reducer. -/
  alone : forall (i j : Nat) (a b : Job) wf, s.jobs[i]? = some a -> s.jobs[j]? = some b ->
    a.role.reducerOf = some wf -> b.role.reducerOf = some wf -> i = j
  unread : forall wf,
    (forall (j : Nat) (job : Job), s.jobs[j]? = some job -> job.role.reducerOf ≠ some wf) ->
      found wf none past = []

theorem pipeInv_init (t : Text) (d : Deployment) : PipeInv t d Pipeline.init [] where
  counts := rfl
  jobs j job h := by cases h
  alone i j a b wf h := by cases h
  unread wf _ := rfl

/-!
## One access to the store
-/

section Access

variable {t : Text} {d : Deployment} {store : Dict String Value} {past : List PipeEvent}

theorem out_paths_ne : splitterOutPath ≠ mapperOutPath := by
  decide

theorem chunks_getElem? {id : Nat} (hid : id < d.mapperNum) :
    d.chunks[id]? = some (d.chunk id) := by
  have hlt : id < d.chunks.length := by
    unfold Deployment.chunks
    rw [length_splitterExecuteBody]
    exact hid
  unfold Deployment.chunk
  rw [List.getD_eq_getElem?_getD, List.getElem?_eq_getElem hlt]
  rfl

theorem countChunk_eq (m : WordMeta) {id : Nat} (hid : id < d.mapperNum) :
    countChunk t id m (.chunks d.chunks) =
      call (StorageOp.redisPut mapperOutPath (d.countsOf t id)) fun _ =>
        ret (.event { m with s3ObjKey := some mapperOutPath }) := by
  unfold countChunk chunkAt
  simp only [chunks_getElem? hid]
  rfl

theorem mapM_asCounts (ids : List Nat) :
    (ids.map (d.countsOf t)).mapM asCounts =
      .ok ((ids.map d.chunk).map (mapperExecuteBody t)) := by
  rw [List.mapM_map, List.map_map]
  exact mapM_ok fun _ _ => rfl

theorem sumUp_counts (ce : WordMeta) (ids : List Nat) :
    sumUp ce (ids.map (d.countsOf t)) =
      ret (.counted (reducerExecuteBody ((ids.map d.chunk).map (mapperExecuteBody t))) ce) := by
  unfold sumUp
  rw [mapM_asCounts]

theorem fetchAll_cons {e : WordMeta} (hkey : e.s3ObjKey = some mapperOutPath) (ce : WordMeta)
    (rest : List WordMeta) (datas : List Value) :
    fetchAll (e :: rest) datas >>= sumUp ce =
      call (StorageOp.redisGet mapperOutPath) fun (o : Option Value) =>
        loads o >>= fun v => fetchAll rest (datas ++ [v]) >>= sumUp ce := by
  have hfetch : fetchObj e = call (StorageOp.redisGet mapperOutPath) loads := by
    unfold fetchObj
    rw [hkey]
  change (fetchObj e >>= fun wc => fetchAll rest (datas ++ [wc])) >>= sumUp ce = _
  rw [bind_assoc, hfetch]
  rfl

theorem JobOk.stable {store' : Dict String Value} {past' : List PipeEvent} {role : Role}
    {p : Prog storageSig Done} (h : JobOk t d store past role p)
    (htext : d.HasText store -> d.HasText store')
    (hwrote : (lastWrote none past).isSome -> (lastWrote none past').isSome)
    (hfound : forall wf, role.reducerOf = some wf -> found wf none past' = found wf none past) :
    JobOk t d store' past' role p := by
  cases role with
  | splitter wf =>
      cases h with
      | inl hstart => exact Or.inl hstart
      | inr hdone => exact Or.inr ⟨hdone.1, htext hdone.2⟩
  | mapper wf id =>
      rcases h with ⟨hid, hstored, hcode⟩
      refine ⟨hid, htext hstored, ?_⟩
      rcases hcode with hstart | hput | hdone
      · exact Or.inl hstart
      · exact Or.inr (Or.inl hput)
      · exact Or.inr (Or.inr ⟨hdone.1, hwrote hdone.2⟩)
  | reducer wf order =>
      rcases h with ⟨hperm, hsome, metas, ce, hkeys, hcode⟩
      refine ⟨hperm, hwrote hsome, metas, ce, hkeys, ?_⟩
      rw [hfound wf rfl]
      exact hcode

structure Accessed (t : Text) (d : Deployment) (store : Dict String Value)
    (past : List PipeEvent) (role : Role) (o : StorageOp)
    (k : o.Res -> Prog storageSig Done) : Prop where
  job : JobOk t d (answer o store).2 (past ++ eventsOf role o) role (k (answer o store).1)
  counts : (answer o store).2.lookup mapperOutPath =
    (lastWrote none (past ++ eventsOf role o)).map (d.countsOf t)
  text : d.HasText store -> d.HasText (answer o store).2
  wrote : (lastWrote none past).isSome -> (lastWrote none (past ++ eventsOf role o)).isSome
  found : forall wf, role.reducerOf ≠ some wf ->
    found wf none (past ++ eventsOf role o) = found wf none past

theorem accessed_splitter {wf : String} {o : StorageOp} {k : o.Res -> Prog storageSig Done}
    (hcounts : store.lookup mapperOutPath = (lastWrote none past).map (d.countsOf t))
    (hjob : JobOk t d store past (.splitter wf) (call o k)) :
    Accessed t d store past (.splitter wf) o k := by
  cases hjob with
  | inr hdone => cases hdone.1
  | inl hstart =>
      cases hstart
      have htext : d.HasText (store.insert splitterOutPath (.chunks d.chunks)) :=
        AList.lookup_insert store
      constructor
      · exact Or.inr ⟨rfl, htext⟩
      · simp only [answer, eventsOf, List.append_nil]
        rw [AList.lookup_insert_ne out_paths_ne.symm]
        exact hcounts
      · intro _
        exact htext
      · simp [eventsOf]
      · simp [eventsOf]

theorem accessed_mapper {wf : String} {id : Nat} {o : StorageOp}
    {k : o.Res -> Prog storageSig Done}
    (hcounts : store.lookup mapperOutPath = (lastWrote none past).map (d.countsOf t))
    (hjob : JobOk t d store past (.mapper wf id) (call o k)) :
    Accessed t d store past (.mapper wf id) o k := by
  rcases hjob with ⟨hid, htext, hstart | hput | hdone⟩
  · -- It gets the chunks.
    cases hstart
    constructor
    · refine ⟨hid, htext, Or.inr (Or.inl ?_)⟩
      simp only [answer]
      rw [show store.lookup splitterOutPath = some (.chunks d.chunks) from htext]
      rfl
    · simpa [answer, eventsOf] using hcounts
    · exact fun h => h
    · simp [eventsOf]
    · simp [eventsOf]
  · -- It puts its counts.
    rw [countChunk_eq _ hid] at hput
    cases hput
    have hlast : lastWrote none (past ++ [.wrote wf id]) = some id := by
      rw [lastWrote_append]
      rfl
    have htext' : d.HasText (store.insert mapperOutPath (d.countsOf t id)) := by
      unfold Deployment.HasText
      rw [AList.lookup_insert_ne out_paths_ne]
      exact htext
    constructor
    · refine ⟨hid, htext', Or.inr (Or.inr ⟨rfl, ?_⟩)⟩
      simp only [eventsOf]
      rw [hlast]
      rfl
    · simp only [answer, eventsOf]
      rw [hlast, AList.lookup_insert]
      rfl
    · exact fun _ => htext'
    · intro _
      simp only [eventsOf]
      rw [hlast]
      rfl
    · intro wf' _
      have hfound : found wf' none (past ++ [.wrote wf id]) = found wf' none past := by
        rw [found_append]
        exact List.append_nil _
      exact hfound
  · cases hdone.1

theorem accessed_reducer {wf : String} {order : List Nat} {o : StorageOp}
    {k : o.Res -> Prog storageSig Done}
    (hcounts : store.lookup mapperOutPath = (lastWrote none past).map (d.countsOf t))
    (hjob : JobOk t d store past (.reducer wf order) (call o k)) :
    Accessed t d store past (.reducer wf order) o k := by
  rcases hjob with ⟨hperm, hsome, metas, ce, hkeys, hcode⟩
  cases metas with
  | nil =>
      have hdone : call o k = sumUp ce ((found wf none past).map (d.countsOf t)) := hcode
      rw [sumUp_counts] at hdone
      cases hdone
  | cons e rest =>
      rw [fetchAll_cons (hkeys e List.mem_cons_self)] at hcode
      cases hcode
      rcases Option.isSome_iff_exists.mp hsome with ⟨id, hid⟩
      have hlast : lastWrote none (past ++ [.read wf]) = lastWrote none past := by
        rw [lastWrote_append]
        rfl
      have hfound : found wf none (past ++ [.read wf]) = found wf none past ++ [id] := by
        rw [found_append, hid]
        simp [found]
      rw [hid] at hcounts
      constructor
      · simp only [eventsOf]
        refine ⟨hperm, by rw [hlast]; exact hsome, rest, ce, ?_, ?_⟩
        · exact fun m hm => hkeys m (List.mem_cons_of_mem e hm)
        · rw [hfound, List.map_append]
          simp only [answer]
          rw [hcounts]
          rfl
      · simp only [eventsOf, answer]
        rw [hlast, hid]
        exact hcounts
      · exact fun h => h
      · intro h
        simp only [eventsOf]
        rw [hlast]
        exact h
      · intro wf' hne
        have hother : wf ≠ wf' := by
          intro heq
          exact hne (congrArg some heq)
        simp only [eventsOf]
        rw [found_append]
        simp [found, hother]

end Access

/-!
## Runs
-/

section Steps

variable {t : Text} {d : Deployment} {s s' : Pipeline} {past now : List PipeEvent}

theorem PipeInv.accessed (hinv : PipeInv t d s past) {j : Nat} {role : Role} {o : StorageOp}
    {k : o.Res -> Prog storageSig Done}
    (hjob : s.jobs[j]? = some { role := role, code := call o k }) :
    Accessed t d s.store past role o k := by
  have hok := hinv.jobs j _ hjob
  cases role with
  | splitter wf => exact accessed_splitter hinv.counts hok
  | mapper wf id => exact accessed_mapper hinv.counts hok
  | reducer wf order => exact accessed_reducer hinv.counts hok

theorem PipeInv.resume (hinv : PipeInv t d s past) {j : Nat} {role : Role} {o : StorageOp}
    {k : o.Res -> Prog storageSig Done}
    (hjob : s.jobs[j]? = some { role := role, code := call o k }) :
    PipeInv t d
      { store := (answer o s.store).2,
        jobs := s.jobs.set j { role := role, code := k (answer o s.store).1 } }
      (past ++ eventsOf role o) := by
  have hacc := hinv.accessed hjob
  have hlt : j < s.jobs.length := by
    rcases List.getElem?_eq_some_iff.mp hjob with ⟨hlt, _⟩
    exact hlt
  -- The roles stay.
  have hroles : forall (i : Nat) (a : Job),
      (s.jobs.set j { role := role, code := k (answer o s.store).1 })[i]? = some a ->
        exists b, s.jobs[i]? = some b ∧ b.role = a.role := by
    intro i a ha
    by_cases hi : j = i
    · subst hi
      rw [List.getElem?_set_self hlt] at ha
      cases ha
      exact ⟨_, hjob, rfl⟩
    · rw [List.getElem?_set_ne hi] at ha
      exact ⟨a, ha, rfl⟩
  constructor
  · exact hacc.counts
  · intro i job hi
    by_cases hij : j = i
    · subst hij
      rw [List.getElem?_set_self hlt] at hi
      cases hi
      exact hacc.job
    · rw [List.getElem?_set_ne hij] at hi
      apply (hinv.jobs i job hi).stable hacc.text hacc.wrote
      intro wf hwf
      apply hacc.found
      intro hrole
      exact hij (hinv.alone j i _ _ wf hjob hi hrole hwf)
  · intro i i' a b wf ha hb hwf hwf'
    rcases hroles i a ha with ⟨a', ha', hrole⟩
    rcases hroles i' b hb with ⟨b', hb', hrole'⟩
    rw [<- hrole] at hwf
    rw [<- hrole'] at hwf'
    exact hinv.alone i i' a' b' wf ha' hb' hwf hwf'
  · intro wf hnone
    have hbefore : forall (i : Nat) (a : Job), s.jobs[i]? = some a ->
        a.role.reducerOf ≠ some wf := by
      intro i a ha
      by_cases hi : j = i
      · subst hi
        rw [hjob] at ha
        cases ha
        exact hnone j { role := role, code := k (answer o s.store).1 }
          (List.getElem?_set_self hlt)
      · apply hnone i a
        rw [List.getElem?_set_ne hi]
        exact ha
    rw [hacc.found wf (hbefore j _ hjob)]
    exact hinv.unread wf hbefore

theorem getElem?_start {role : Role} {code : Prog storageSig Done} {j : Nat} {job : Job}
    (h : (s.start role code).jobs[j]? = some job) :
    s.jobs[j]? = some job ∨ j = s.jobs.length ∧ job = { role := role, code := code } := by
  rcases Nat.lt_trichotomy j s.jobs.length with hlt | heq | hgt
  · apply Or.inl
    rw [<- h]
    exact (List.getElem?_append_left hlt).symm
  · apply Or.inr
    subst heq
    constructor
    · rfl
    · have hlast : (s.jobs ++ [{ role := role, code := code }])[s.jobs.length]? = some job := h
      rw [List.getElem?_concat_length] at hlast
      exact (Option.some.inj hlast).symm
  · have hnone : (s.start role code).jobs[j]? = none := by
      apply List.getElem?_eq_none
      unfold Pipeline.start
      rw [List.length_append]
      exact hgt
    rw [hnone] at h
    cases h

theorem PipeInv.start (hinv : PipeInv t d s past) {role : Role} {code : Prog storageSig Done}
    (hok : JobOk t d s.store past role code)
    (hnew : forall wf, role.reducerOf = some wf ->
      forall (j : Nat) (job : Job), s.jobs[j]? = some job -> job.role.reducerOf ≠ some wf) :
    PipeInv t d (s.start role code) past := by
  constructor
  · exact hinv.counts
  · intro j job hj
    rcases getElem?_start hj with hold | ⟨_, rfl⟩
    · exact hinv.jobs j job hold
    · exact hok
  · intro i j a b wf ha hb hwf hwf'
    rcases getElem?_start ha with hold | ⟨hi, rfl⟩
    · rcases getElem?_start hb with hold' | ⟨_, rfl⟩
      · exact hinv.alone i j a b wf hold hold' hwf hwf'
      · exact absurd hwf (hnew wf hwf' i a hold)
    · rcases getElem?_start hb with hold' | ⟨hj, _⟩
      · exact absurd hwf' (hnew wf hwf j b hold')
      · rw [hi, hj]
  · intro wf hnone
    apply hinv.unread wf
    intro j job hj
    apply hnone j job
    have hlt : j < s.jobs.length := by
      rcases List.getElem?_eq_some_iff.mp hj with ⟨hlt, _⟩
      exact hlt
    rw [<- hj]
    exact List.getElem?_append_left hlt

theorem mem_eventOf {role : Role} {m : WordMeta} (h : s.eventOf role = some m) :
    exists j : Nat, s.jobs[j]? = some { role := role, code := ret (.event m) } := by
  rcases List.exists_of_findSome?_eq_some h with ⟨job, hmem, hjob⟩
  rcases List.mem_iff_getElem?.mp hmem with ⟨j, hj⟩
  split at hjob
  case isFalse => cases hjob
  case isTrue hrole =>
    refine ⟨j, ?_⟩
    rw [hj]
    rcases job with ⟨role', code⟩
    simp only at hrole
    subst hrole
    unfold Job.event? at hjob
    split at hjob
    case h_1 m' hcode =>
      cases hjob
      simp only at hcode
      rw [hcode]
    case h_2 => cases hjob

theorem PipeInv.splitter_event (hinv : PipeInv t d s past) {wf : String} {m : WordMeta}
    (h : s.eventOf (.splitter wf) = some m) : m = splitterMeta wf ∧ d.HasText s.store := by
  rcases mem_eventOf h with ⟨j, hj⟩
  rcases hinv.jobs j _ hj with hstart | ⟨hdone, htext⟩
  · cases hstart
  · cases hdone
    exact ⟨rfl, htext⟩

theorem PipeInv.mapper_event (hinv : PipeInv t d s past) {wf : String} {id : Nat}
    {m : WordMeta} (h : s.eventOf (.mapper wf id) = some m) :
    m = mapperMeta wf ∧ (lastWrote none past).isSome := by
  rcases mem_eventOf h with ⟨j, hj⟩
  rcases hinv.jobs j _ hj with ⟨hid, _, hstart | hput | ⟨hdone, hwrote⟩⟩
  · cases hstart
  · rw [countChunk_eq _ hid] at hput
    cases hput
  · cases hdone
    exact ⟨rfl, hwrote⟩

theorem PipeInv.mapper_events (hinv : PipeInv t d s past) {wf : String} {order : List Nat}
    {metas : List WordMeta}
    (h : (order.mapM fun id => s.eventOf (.mapper wf id)) = some metas) :
    metas.length = order.length ∧ forall m, m ∈ metas ->
      m.s3ObjKey = some mapperOutPath ∧ (lastWrote none past).isSome := by
  induction order generalizing metas with
  | nil =>
      cases h
      exact ⟨rfl, fun m hm => by cases hm⟩
  | cons id rest ih =>
      rw [List.mapM_cons] at h
      rcases Option.bind_eq_some_iff.mp h with ⟨m, hm, htail⟩
      rcases Option.bind_eq_some_iff.mp htail with ⟨ms, hms, heq⟩
      cases heq
      rcases ih hms with ⟨hlength, hall⟩
      rcases hinv.mapper_event hm with ⟨rfl, hwrote⟩
      constructor
      · simp only [List.length_cons]
        rw [hlength]
      · intro m' hm'
        cases List.mem_cons.mp hm' with
        | inl heq =>
            rw [heq]
            exact ⟨rfl, hwrote⟩
        | inr hmem => exact hall m' hmem

theorem PipeInv.step {act : PipeAct} (hinv : PipeInv t d s past)
    (hstep : s.step t d act = some (s', now)) : PipeInv t d s' (past ++ now) := by
  cases act with
  | split wf =>
      simp only [Pipeline.step] at hstep
      split at hstep
      case isFalse => cases hstep
      case isTrue =>
        cases hstep
        rw [List.append_nil]
        exact hinv.start (Or.inl rfl) fun _ hrole => by cases hrole
  | map wf id =>
      simp only [Pipeline.step] at hstep
      cases hevent : s.eventOf (.splitter wf) with
      | none =>
          rw [hevent] at hstep
          cases hstep
      | some m =>
          rw [hevent] at hstep
          simp only at hstep
          split at hstep
          case isFalse => cases hstep
          case isTrue hid =>
            cases hstep
            rw [List.append_nil]
            rcases hinv.splitter_event hevent with ⟨rfl, htext⟩
            exact hinv.start ⟨hid.1, htext, Or.inl rfl⟩ fun _ hrole => by cases hrole
  | reduce wf order =>
      simp only [Pipeline.step] at hstep
      cases hevents : order.mapM fun id => s.eventOf (.mapper wf id) with
      | none =>
          rw [hevents] at hstep
          cases hstep
      | some metas =>
          rw [hevents] at hstep
          simp only at hstep
          split at hstep
          case isFalse => cases hstep
          case isTrue hguard =>
            cases hstep
            rw [List.append_nil]
            rcases hinv.mapper_events hevents with ⟨hlength, hmetas⟩
            have hnew : forall (j : Nat) (job : Job), s.jobs[j]? = some job ->
                job.role.reducerOf ≠ some wf := by
              intro j job hj hrole
              apply hguard.2
              exact List.mem_map.mpr ⟨job, List.mem_of_getElem? hj, hrole⟩
            have hpositive : 0 < metas.length := by
              rw [hlength, hguard.1.length_eq, List.length_range]
              exact d.positive
            rcases List.exists_mem_of_length_pos hpositive with ⟨m, hm⟩
            have hlast : exists ce, metas.getLast? = some ce := by
              rw [<- Option.isSome_iff_exists, List.getLast?_isSome]
              exact List.ne_nil_of_mem hm
            rcases hlast with ⟨ce, hce⟩
            apply hinv.start
            · refine ⟨hguard.1, (hmetas m hm).2, metas, ce, fun m hm => (hmetas m hm).1, ?_⟩
              rw [hinv.unread wf hnew]
              unfold reducerEs
              rw [hce]
              rfl
            · intro wf' hrole
              cases hrole
              exact hnew
  | resume j =>
      simp only [Pipeline.step] at hstep
      cases hjob : s.jobs[j]? with
      | none =>
          rw [hjob] at hstep
          cases hstep
      | some job =>
          rw [hjob] at hstep
          rcases job with ⟨role, code⟩
          cases code with
          | ret a => cases hstep
          | panic msg => cases hstep
          | call o k =>
              cases hstep
              exact hinv.resume hjob

end Steps

theorem pipeInv_run {t : Text} {d : Deployment} {acts : List PipeAct} {s : Pipeline}
    {past : List PipeEvent}
    (hrun : runFrom (Pipeline.step t d) Pipeline.init acts = some (s, past)) :
    PipeInv t d s past := by
  have hstep : forall (s : Pipeline) past a s' now, PipeInv t d s past ->
      Pipeline.step t d s a = some (s', now) -> PipeInv t d s' (past ++ now) :=
    fun s past a s' now hinv hs => hinv.step hs
  exact runFrom_invariant_free hstep (pipeInv_init t d) hrun

/-!
## The same workflow with RPC
-/

/-- The word count that the reducer computes from the data of the events. -/
def rpcWordCount (t : Text) (d : Deployment) (wf : String) (order : List Nat) :
    Except String Counts := do
  let metas ← order.mapM fun id => mapperRpc t id (splitterRpc d.lines d.mapperNum wf)
  let r ← reducerRpc metas
  .ok r.1

def rpcMeta (t : Text) (d : Deployment) (wf : String) (id : Nat) : WordMeta where
  wfId := wf
  s3ObjKey := none
  data := some (d.countsOf t id)

section Rpc

variable (t : Text) {d : Deployment} {order : List Nat}

theorem mapperRpc_eq (wf : String) {id : Nat} (hid : id < d.mapperNum) :
    mapperRpc t id (splitterRpc d.lines d.mapperNum wf) = .ok (rpcMeta t d wf id) := by
  have hget : (splitterExecuteBody d.lines d.mapperNum)[id]? = some (d.chunk id) :=
    chunks_getElem? hid
  have hchunk : chunkAt (.chunks (splitterExecuteBody d.lines d.mapperNum)) id =
      .ok (d.chunk id) := by
    unfold chunkAt
    simp only [hget]
  unfold mapperRpc splitterRpc
  simp only [hchunk]
  rfl

theorem reducerRpc_eq (wf : String) (hne : order ≠ []) :
    exists ce, reducerRpc (order.map (rpcMeta t d wf)) =
      .ok (reducerExecuteBody ((order.map d.chunk).map (mapperExecuteBody t)), ce) := by
  have hdata : (order.map (rpcMeta t d wf)).mapM WordMeta.dataField =
      .ok (order.map (d.countsOf t)) := by
    rw [List.mapM_map]
    exact mapM_ok fun _ _ => rfl
  have hlast : exists ce, (order.map (rpcMeta t d wf)).getLast? = some ce := by
    rw [<- Option.isSome_iff_exists, List.getLast?_isSome]
    intro hnil
    exact hne (List.map_eq_nil_iff.mp hnil)
  rcases hlast with ⟨ce, hce⟩
  refine ⟨ce, ?_⟩
  unfold reducerRpc
  rw [hdata, hce, ok_bind, mapM_asCounts]
  rfl

theorem rpcWordCount_eq (wf : String) (hperm : order.Perm (List.range d.mapperNum)) :
    rpcWordCount t d wf order =
      .ok (reducerExecuteBody ((order.map d.chunk).map (mapperExecuteBody t))) := by
  have hmappers : (order.mapM fun id => mapperRpc t id (splitterRpc d.lines d.mapperNum wf)) =
      .ok (order.map (rpcMeta t d wf)) := by
    apply mapM_ok
    intro id hid
    exact mapperRpc_eq t wf (List.mem_range.mp (hperm.mem_iff.mp hid))
  have hne : order ≠ [] := by
    intro hnil
    have hlength := hperm.length_eq
    rw [hnil, List.length_range] at hlength
    exact absurd d.positive (by rw [<- hlength]; decide)
  rcases reducerRpc_eq t wf hne with ⟨ce, hreducer⟩
  unfold rpcWordCount
  rw [hmappers, ok_bind, hreducer]
  rfl

theorem map_chunk_range : (List.range d.mapperNum).map d.chunk = d.chunks := by
  apply List.ext_getElem?
  intro id
  rw [List.getElem?_map]
  by_cases hid : id < d.mapperNum
  · rw [chunks_getElem? hid, List.getElem?_range hid]
    rfl
  · have hlength : d.chunks.length = d.mapperNum := length_splitterExecuteBody _ _
    rw [List.getElem?_eq_none (by rw [List.length_range]; omega),
      List.getElem?_eq_none (by rw [hlength]; omega)]
    rfl

theorem words_of_order (hperm : order.Perm (List.range d.mapperNum)) :
    ((order.map d.chunk).flatten.flatMap t.words).Perm (d.lines.flatMap t.words) := by
  have hflatten : (order.map d.chunk).flatten.Perm d.lines := by
    have h := (hperm.map d.chunk).flatten
    rw [map_chunk_range] at h
    unfold Deployment.chunks at h
    rw [flatten_splitterExecuteBody d.lines d.positive] at h
    exact h
  exact hflatten.flatMap_right _

end Rpc

theorem reducer_done {t : Text} {d : Deployment} {acts : List PipeAct} {s : Pipeline}
    {past : List PipeEvent}
    (hrun : runFrom (Pipeline.step t d) Pipeline.init acts = some (s, past))
    {job : Job} (hjob : job ∈ s.jobs) {wf : String} {order : List Nat} {out : Outcome Done}
    (hrole : job.role = .reducer wf order) (hdone : job.code.outcome = some out) :
    order.Perm (List.range d.mapperNum) ∧
      exists ce, out = .returned (.counted
        (reducerExecuteBody (((found wf none past).map d.chunk).map (mapperExecuteBody t))) ce) := by
  rcases List.mem_iff_getElem?.mp hjob with ⟨j, hj⟩
  have hok := (pipeInv_run hrun).jobs j job hj
  rw [hrole] at hok
  rcases hok with ⟨hperm, _, metas, ce, hkeys, hcode⟩
  cases metas with
  | cons e rest =>
      rw [fetchAll_cons (hkeys e List.mem_cons_self)] at hcode
      rw [hcode] at hdone
      cases hdone
  | nil =>
      have hsum : job.code = sumUp ce ((found wf none past).map (d.countsOf t)) := hcode
      rw [sumUp_counts] at hsum
      rw [hsum] at hdone
      cases hdone
      exact ⟨hperm, ce, rfl⟩

/-- A reducer that gets its counts from the store computes what it would compute from the
events, exactly when the chunks whose counts it has found have the words of the text. -/
theorem es_matches_rpc_iff (t : Text) (d : Deployment) {acts : List PipeAct} {s : Pipeline}
    {past : List PipeEvent}
    (hrun : runFrom (Pipeline.step t d) Pipeline.init acts = some (s, past))
    {job : Job} (hjob : job ∈ s.jobs) {wf : String} {order : List Nat} {out : Outcome Done}
    (hrole : job.role = .reducer wf order) (hdone : job.code.outcome = some out) :
    exists wcRes ce wcRpc, out = .returned (.counted wcRes ce) ∧
      rpcWordCount t d wf order = .ok wcRpc ∧
        (Dict.Same wcRes wcRpc <->
          (((found wf none past).map d.chunk).flatten.flatMap t.words).Perm
            (d.lines.flatMap t.words)) := by
  rcases reducer_done hrun hjob hrole hdone with ⟨hperm, ce, hout⟩
  refine ⟨_, ce, _, hout, rpcWordCount_eq t wf hperm, ?_⟩
  rw [same_reducer_mappers_iff]
  have horder := words_of_order t hperm
  constructor
  · intro h
    exact h.trans horder
  · intro h
    exact h.trans horder.symm

/-!
## Two mappers
-/

def twoLines (first second : String) : Deployment where
  lines := [first, second]
  mapperNum := 2
  positive := Nat.zero_lt_two

/-- One workflow: both mappers get their chunks and put their counts, and the reducer gets
two. -/
def oneWorkflow : List PipeAct :=
  [.split "w", .resume 0, .map "w" 0, .map "w" 1, .resume 1, .resume 2, .resume 1, .resume 2,
    .reduce "w" [0, 1], .resume 3, .resume 3]

def outcomeOf (d : Deployment) : Option (List Nat × List (Role × Bool)) :=
  (runFrom (Pipeline.step ascii d) Pipeline.init oneWorkflow).map fun r =>
    (found "w" none r.2, r.1.jobs.map fun job => (job.role, job.code.outcome.isSome))

def allEnded : List (Role × Bool) :=
  [(.splitter "w", true), (.mapper "w" 0, true), (.mapper "w" 1, true),
    (.reducer "w" [0, 1], true)]

theorem es_matches_rpc_iff_alike :
    exists s past job out wcRes ce wcRpc,
      runFrom (Pipeline.step ascii (twoLines "la mer" "Mer, la")) Pipeline.init oneWorkflow =
          some (s, past) ∧
        job ∈ s.jobs ∧ job.role = .reducer "w" [0, 1] ∧ job.code.outcome = some out ∧
          out = .returned (.counted wcRes ce) ∧
            rpcWordCount ascii (twoLines "la mer" "Mer, la") "w" [0, 1] = .ok wcRpc ∧
              Dict.Same wcRes wcRpc := by
  have hobserved : outcomeOf (twoLines "la mer" "Mer, la") = some ([1, 1], allEnded) := by
    decide +kernel
  rcases Option.map_eq_some_iff.mp hobserved with ⟨⟨s, past⟩, hrun, heq⟩
  rcases Prod.mk.inj heq with ⟨hfound, hjobs⟩
  have hmem : (Role.reducer "w" [0, 1], true) ∈
      s.jobs.map fun job => (job.role, job.code.outcome.isSome) := by
    rw [hjobs]
    decide
  rcases List.mem_map.mp hmem with ⟨job, hjob, hreducer⟩
  rcases Prod.mk.inj hreducer with ⟨hrole, hended⟩
  rcases Option.isSome_iff_exists.mp hended with ⟨out, hout⟩
  rcases es_matches_rpc_iff ascii (twoLines "la mer" "Mer, la") hrun hjob hrole hout with
    ⟨wcRes, ce, wcRpc, hcounted, hrpc, hiff⟩
  refine ⟨s, past, job, out, wcRes, ce, wcRpc, hrun, hjob, hrole, hout, hcounted, hrpc, ?_⟩
  have hcounted : ([1, 1].map (twoLines "la mer" "Mer, la").chunk).flatten.flatMap ascii.words =
      ["mer", "la", "mer", "la"] := by
    decide +kernel
  have hwords : (twoLines "la mer" "Mer, la").lines.flatMap ascii.words =
      ["la", "mer", "mer", "la"] := by
    decide +kernel
  apply hiff.mpr
  simp only at hfound
  rw [hfound, hcounted, hwords]
  exact List.Perm.swap "la" "mer" ["mer", "la"]

/-- The reducer gets the counts of the second mapper twice. -/
theorem not_es_matches_rpc_overwritten :
    ¬ forall s past job wf order wcRes ce wcRpc,
      runFrom (Pipeline.step ascii (twoLines "la mer" "le ciel")) Pipeline.init oneWorkflow =
          some (s, past) ->
        job ∈ s.jobs -> job.role = .reducer wf order ->
          job.code.outcome = some (.returned (.counted wcRes ce)) ->
            rpcWordCount ascii (twoLines "la mer" "le ciel") wf order = .ok wcRpc ->
              Dict.Same wcRes wcRpc := by
  intro h
  have hobserved : outcomeOf (twoLines "la mer" "le ciel") = some ([1, 1], allEnded) := by
    decide +kernel
  rcases Option.map_eq_some_iff.mp hobserved with ⟨⟨s, past⟩, hrun, heq⟩
  rcases Prod.mk.inj heq with ⟨hfound, hjobs⟩
  have hmem : (Role.reducer "w" [0, 1], true) ∈
      s.jobs.map fun job => (job.role, job.code.outcome.isSome) := by
    rw [hjobs]
    decide
  rcases List.mem_map.mp hmem with ⟨job, hjob, hreducer⟩
  rcases Prod.mk.inj hreducer with ⟨hrole, hended⟩
  rcases Option.isSome_iff_exists.mp hended with ⟨out, hout⟩
  rcases reducer_done hrun hjob hrole hout with ⟨hperm, ce, rfl⟩
  have hsame := h s past job "w" [0, 1] _ ce _ hrun hjob hrole hout
    (rpcWordCount_eq ascii "w" hperm)
  rw [same_reducer_mappers_iff] at hsame
  simp only at hfound
  rw [hfound] at hsame
  exact absurd hsame (by decide +kernel)

end Workflow
end Dmerge
