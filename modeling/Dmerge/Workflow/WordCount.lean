import Dmerge.Foundation.Attempts
import Dmerge.Foundation.Prog
import Dmerge.Foundation.Tally
import Dmerge.Workflow.Join

/-!
# Counting the words of a text

The splitter cuts the lines of a text into one chunk for each mapper, a mapper
counts the words of its chunk, and the reducer adds the counts up.  With RPC the
chunks and the counts travel in the events.  With external storage they are put
into a store, and the events carry the keys.
-/

namespace Dmerge
namespace Workflow

open Foundation Prog

/-- What the library of the language says about characters: `str.lower`, and the class
of the characters of words. -/
structure Text where
  lower : String -> String
  isWord : Char -> Bool

def ascii : Text where
  lower := String.toLower
  isWord c := c.isAlphanum || c == '_'

abbrev Counts : Type := Dict String Nat

namespace Text

/-- `re.findall` of one or more characters of words: the longest stretches of them. -/
def findall (t : Text) (s : String) : List String :=
  ((s.toList.splitOnP fun c => !t.isWord c).filter fun w => !w.isEmpty).map String.ofList

def words (t : Text) (line : String) : List String := t.findall (t.lower line)

end Text

/-!
## The bodies
-/

/-- `lines[start:stop]` -/
def slice (lines : List String) (start stop : Nat) : List String :=
  (lines.take stop).drop start

def linesPerFile (totalLines mapperNum : Nat) : Nat := (totalLines + mapperNum - 1) / mapperNum

def splitterExecuteBody (lines : List String) (mapperNum : Nat) : List (List String) :=
  (List.range mapperNum).map fun i =>
    slice lines (i * linesPerFile lines.length mapperNum)
      (min ((i + 1) * linesPerFile lines.length mapperNum) lines.length)

def mapperExecuteBody (t : Text) (lines : List String) : Counts :=
  lines.foldl (fun wc line => (t.words line).foldl (fun wc word => wc.bump word 1) wc) ∅

def reducerExecuteBody (wordCounts : List Counts) : Counts :=
  wordCounts.foldl (fun wc c => (Dict.items c).foldl (fun wc p => wc.bump p.1 p.2) wc) ∅

/-!
## Events and stored objects
-/

/-- What is pickled into the store or travels as `data`. -/
inductive Value where
  | chunks (wcs : List (List String))
  | counts (wc : Counts)

/-- The data of an event. -/
structure WordMeta where
  wfId : String
  s3ObjKey : Option String
  data : Option Value

def textPath : String := "datasets/OliverTwist_CharlesDickens/OliverTwist_CharlesDickens_French.txt"

def splitterOutPath : String := textPath ++ ".txt"

def mapperOutPath : String := "/tmp/wc.txt"

def indexError : String := "IndexError: list index out of range"

def notBytes : String := "TypeError: a bytes-like object is required, not 'NoneType'"

def noItems : String := "AttributeError: 'list' object has no attribute 'items'"

/-- `pickle.loads(o)[id]`, where the object is a list. -/
def chunkAt (v : Value) (id : Nat) : Except String (List String) :=
  match v with
  | .chunks wcs =>
      match wcs[id]? with
      | some lines => .ok lines
      | none => .error indexError
  | .counts _ => .error (keyError (toString id))

def asCounts : Value -> Except String Counts
  | .counts wc => .ok wc
  | .chunks _ => .error noItems

/-!
## RPC
-/

def splitterRpc (lines : List String) (mapperNum : Nat) (wfId : String) : WordMeta where
  wfId := wfId
  s3ObjKey := none
  data := some (.chunks (splitterExecuteBody lines mapperNum))

def mapperRpc (t : Text) (id : Nat) (m : WordMeta) : Except String WordMeta :=
  match m.data with
  | none => .error (keyError "data")
  | some data => do
      let selfData ← chunkAt data id
      .ok { m with data := some (.counts (mapperExecuteBody t selfData)) }

/-- `event['data']` -/
def WordMeta.dataField (m : WordMeta) : Except String Value :=
  match m.data with
  | none => .error (keyError "data")
  | some data => .ok data

def reducerRpc (metas : List WordMeta) : Except String (Counts × WordMeta) := do
  let wcAggregate ← metas.mapM WordMeta.dataField
  let wcs ← wcAggregate.mapM asCounts
  match metas.getLast? with
  | none => .error indexError
  | some event => .ok (reducerExecuteBody wcs, event)

/-!
## External storage
-/

inductive StorageOp where
  | redisGet (k : String)
  | redisPut (k : String) (v : Value)

abbrev StorageOp.Res : StorageOp -> Type
  | redisGet _ => Option Value
  | redisPut _ _ => Unit

abbrev storageSig : Signature where
  Op := StorageOp
  Res := StorageOp.Res

/-- What a handler ends with; the reducer has computed a word count. -/
inductive Done where
  | event (m : WordMeta)
  | counted (wcRes : Counts) (ce : WordMeta)

def splitterEs (lines : List String) (mapperNum : Nat) (wfId : String) : Prog storageSig Done :=
  call (.redisPut splitterOutPath (.chunks (splitterExecuteBody lines mapperNum))) fun _ =>
    ret (.event { wfId := wfId, s3ObjKey := some splitterOutPath, data := none })

/-- `pickle.loads(o)` -/
def loads : Option Value -> Prog storageSig Value
  | none => panic notBytes
  | some v => ret v

/-- `pickle.loads(util.redis_get(event['s3_obj_key']))` -/
def fetchObj (m : WordMeta) : Prog storageSig Value :=
  match m.s3ObjKey with
  | none => panic (keyError "s3_obj_key")
  | some key => call (.redisGet key) loads

def countChunk (t : Text) (id : Nat) (m : WordMeta) (o : Value) : Prog storageSig Done :=
  match chunkAt o id with
  | .error err => panic err
  | .ok lines =>
      call (.redisPut mapperOutPath (.counts (mapperExecuteBody t lines))) fun _ =>
        ret (.event { m with s3ObjKey := some mapperOutPath })

def mapperEs (t : Text) (id : Nat) (m : WordMeta) : Prog storageSig Done :=
  fetchObj m >>= countChunk t id m

def fetchAll : List WordMeta -> List Value -> Prog storageSig (List Value)
  | [], datas => ret datas
  | event :: metas, datas => fetchObj event >>= fun wc => fetchAll metas (datas ++ [wc])

def sumUp (ce : WordMeta) (datas : List Value) : Prog storageSig Done :=
  match datas.mapM asCounts with
  | .error err => panic err
  | .ok wcs => ret (.counted (reducerExecuteBody wcs) ce)

def reducerEs (metas : List WordMeta) : Prog storageSig Done :=
  match metas.getLast? with
  | none => panic indexError
  | some ce => fetchAll metas [] >>= sumUp ce

/-!
## What the bodies compute
-/

section Bodies

variable (t : Text)

theorem mapperExecuteBody_eq (lines : List String) :
    mapperExecuteBody t lines =
      Dict.bumpAll ∅ ((lines.flatMap t.words).map fun word => (word, 1)) := by
  unfold mapperExecuteBody Dict.bumpAll
  rw [List.foldl_map, List.foldl_flatMap]

theorem reducerExecuteBody_eq (wcs : List Counts) :
    reducerExecuteBody wcs = Dict.bumpAll ∅ (wcs.flatMap Dict.items) := by
  unfold reducerExecuteBody Dict.bumpAll
  rw [List.foldl_flatMap]

theorem amount_mapper (lines : List String) (word : String) :
    Dict.amount (mapperExecuteBody t lines) word = (lines.flatMap t.words).count word := by
  rw [mapperExecuteBody_eq, Dict.amount_bumpAll, Dict.share_ones, Dict.amount_empty, Nat.zero_add]

theorem positive_mapper (lines : List String) : Dict.Positive (mapperExecuteBody t lines) := by
  rw [mapperExecuteBody_eq]
  apply Dict.positive_empty.bumpAll
  intro p hp
  rcases List.mem_map.mp hp with ⟨word, _, rfl⟩
  exact Nat.one_pos

theorem amount_reducer (wcs : List Counts) (word : String) :
    Dict.amount (reducerExecuteBody wcs) word =
      (wcs.map fun wc => Dict.amount wc word).sum := by
  rw [reducerExecuteBody_eq, Dict.amount_bumpAll, Dict.share_flatMap, Dict.amount_empty,
    Nat.zero_add]
  congr 1
  apply List.map_congr_left
  intro wc _
  exact Dict.share_items wc word

theorem positive_reducer {wcs : List Counts} (h : forall wc, wc ∈ wcs -> Dict.Positive wc) :
    Dict.Positive (reducerExecuteBody wcs) := by
  rw [reducerExecuteBody_eq]
  apply Dict.positive_empty.bumpAll
  intro p hp
  rcases List.mem_flatMap.mp hp with ⟨wc, hwc, hitem⟩
  exact (h wc hwc).items p hitem

theorem amount_reducer_mappers (chunks : List (List String)) (word : String) :
    Dict.amount (reducerExecuteBody (chunks.map (mapperExecuteBody t))) word =
      (chunks.flatten.flatMap t.words).count word := by
  rw [amount_reducer]
  induction chunks with
  | nil => rfl
  | cons chunk rest ih =>
      rw [List.map_cons, List.map_cons, List.sum_cons, ih, amount_mapper, List.flatten_cons,
        List.flatMap_append, List.count_append]

theorem same_reducer_mappers_iff (chunks chunks' : List (List String)) :
    Dict.Same (reducerExecuteBody (chunks.map (mapperExecuteBody t)))
        (reducerExecuteBody (chunks'.map (mapperExecuteBody t))) <->
      (chunks.flatten.flatMap t.words).Perm (chunks'.flatten.flatMap t.words) := by
  have hpositive : forall chunks : List (List String),
      Dict.Positive (reducerExecuteBody (chunks.map (mapperExecuteBody t))) := by
    intro chunks
    apply positive_reducer
    intro wc hwc
    rcases List.mem_map.mp hwc with ⟨chunk, _, rfl⟩
    exact positive_mapper t chunk
  rw [Dict.same_iff (hpositive chunks) (hpositive chunks'), List.perm_iff_count]
  constructor
  · intro h word
    rw [<- amount_reducer_mappers, <- amount_reducer_mappers]
    exact h word
  · intro h word
    rw [amount_reducer_mappers, amount_reducer_mappers]
    exact h word

end Bodies

/-!
## The chunks
-/

theorem le_mul_linesPerFile (totalLines : Nat) {mapperNum : Nat} (hn : 1 ≤ mapperNum) :
    totalLines ≤ mapperNum * linesPerFile totalLines mapperNum := by
  have h := Nat.div_add_mod (totalLines + mapperNum - 1) mapperNum
  have hlt := Nat.mod_lt (totalLines + mapperNum - 1) hn
  unfold linesPerFile
  omega

theorem flatten_slices (lines : List String) (k n : Nat) :
    ((List.range n).map fun i =>
      slice lines (i * k) (min ((i + 1) * k) lines.length)).flatten = lines.take (n * k) := by
  induction n with
  | zero => simp
  | succ n ih =>
      rw [List.range_succ, List.map_append, List.flatten_append, ih]
      have hslice : slice lines (n * k) (min ((n + 1) * k) lines.length) =
          (lines.take ((n + 1) * k)).drop (n * k) := by
        unfold slice
        rw [<- List.take_eq_take_min]
      have hle : n * k ≤ (n + 1) * k := Nat.mul_le_mul_right k (Nat.le_succ n)
      have htake : lines.take (n * k) = (lines.take ((n + 1) * k)).take (n * k) := by
        rw [List.take_take, Nat.min_eq_left hle]
      rw [List.map_singleton, List.flatten_singleton, hslice, htake, List.take_append_drop]

theorem flatten_splitterExecuteBody (lines : List String) {mapperNum : Nat}
    (hn : 1 ≤ mapperNum) : (splitterExecuteBody lines mapperNum).flatten = lines := by
  unfold splitterExecuteBody
  rw [flatten_slices]
  exact List.take_of_length_le (le_mul_linesPerFile lines.length hn)

@[simp] theorem length_splitterExecuteBody (lines : List String) (mapperNum : Nat) :
    (splitterExecuteBody lines mapperNum).length = mapperNum := by
  simp [splitterExecuteBody]

/-!
## The word count of a text
-/

/-- Each word of the text stands with the number of its occurrences, and nothing else
stands there. -/
def CountsWords (t : Text) (lines : List String) (wc : Counts) : Prop :=
  forall word, wc.lookup word =
    if word ∈ lines.flatMap t.words then some ((lines.flatMap t.words).count word) else none

theorem amount_reducer_perm {wcs wcs' : List Counts} (h : wcs.Perm wcs') (word : String) :
    Dict.amount (reducerExecuteBody wcs) word = Dict.amount (reducerExecuteBody wcs') word := by
  rw [amount_reducer, amount_reducer]
  exact (h.map fun wc => Dict.amount wc word).sum_eq

theorem countsWords_of_amount {t : Text} {lines : List String} {wc : Counts}
    (hpositive : Dict.Positive wc)
    (hamount : forall word, Dict.amount wc word = (lines.flatMap t.words).count word) :
    CountsWords t lines wc := by
  intro word
  rw [hpositive.lookup_eq, hamount]
  by_cases hword : word ∈ lines.flatMap t.words
  · have hcount := List.count_pos_iff.mpr hword
    rw [if_pos hword, if_neg (Nat.ne_of_gt hcount)]
  · rw [if_neg hword, if_pos (List.count_eq_zero.mpr hword)]

/-- The chunks are as many as the mappers and are the text, and the reducer counts the
words of the text, in whatever order the counts of the mappers reach it. -/
theorem wordCount_correct (t : Text) (lines : List String) {mapperNum : Nat}
    (hn : 1 ≤ mapperNum) :
    (splitterExecuteBody lines mapperNum).length = mapperNum ∧
      (splitterExecuteBody lines mapperNum).flatten = lines ∧
        forall wcs : List Counts,
          wcs.Perm ((splitterExecuteBody lines mapperNum).map (mapperExecuteBody t)) ->
            CountsWords t lines (reducerExecuteBody wcs) := by
  have hflatten := flatten_splitterExecuteBody lines hn
  refine ⟨length_splitterExecuteBody lines mapperNum, hflatten, ?_⟩
  intro wcs hperm
  apply countsWords_of_amount
  · apply positive_reducer
    intro wc hwc
    rcases List.mem_map.mp (hperm.subset hwc) with ⟨chunk, _, rfl⟩
    exact positive_mapper t chunk
  · intro word
    rw [amount_reducer_perm hperm, amount_reducer_mappers, hflatten]

theorem wordCount_correct_three :
    (splitterExecuteBody ["la mer", "Mer, la"] 3).flatten = ["la mer", "Mer, la"] ∧
      (reducerExecuteBody (((splitterExecuteBody ["la mer", "Mer, la"] 3).map
        (mapperExecuteBody ascii)).reverse)).lookup "mer" = some 2 := by
  have hcorrect := wordCount_correct ascii ["la mer", "Mer, la"] (show 1 ≤ 3 by decide)
  refine ⟨hcorrect.2.1, ?_⟩
  have hwords : ["la mer", "Mer, la"].flatMap ascii.words = ["la", "mer", "mer", "la"] := by
    decide +kernel
  rw [hcorrect.2.2 _ (List.reverse_perm _) "mer", hwords]
  rfl

end Workflow
end Dmerge
