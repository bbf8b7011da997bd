import Dmerge.Foundation.Attempts
import Dmerge.Foundation.Binary64
import Dmerge.Foundation.NestedDict
import Dmerge.Foundation.Numerals
import Dmerge.Foundation.Pattern
import Dmerge.Foundation.Separators
import Dmerge.Workflow.Strings

/-!
# Reading measurements back

The last function of a workflow prints one line for each stage, and a script collects the
lines of the log again with a regular expression.  Its number is two runs of digits, so a
number of one digit is none.
-/

namespace Dmerge
namespace Workflow

open Foundation

/-- The classes of characters of a regular expression, and what the digits count. -/
structure CharClasses where
  isWord : Char -> Bool
  digit : Char -> Option Nat
  digit_lt : forall {c d}, digit c = some d -> d < 10
  digit_digitChar : forall {d}, d < 10 -> digit (Nat.digitChar d) = some d
  space_notWord : isWord ' ' = false
  at_notWord : isWord '@' = false
  space_notDigit : digit ' ' = none

namespace CharClasses

def decimal (t : CharClasses) : Alphabet 10 where
  digit := t.digit
  char := Nat.digitChar
  digit_lt := t.digit_lt
  digit_char := t.digit_digitChar

def isDigit (t : CharClasses) (c : Char) : Bool := (t.digit c).isSome

end CharClasses

def asciiDigit (c : Char) : Option Nat :=
  if 48 ≤ c.toNat ∧ c.toNat ≤ 57 then some (c.toNat - 48) else none

def asciiClasses : CharClasses where
  isWord c := c.isAlphanum || c == '_'
  digit := asciiDigit
  digit_lt := by
    intro c d h
    unfold asciiDigit at h
    split at h
    · cases h
      omega
    · cases h
  digit_digitChar := by
    intro d hd
    have hall : forall d, d < 10 -> asciiDigit (Nat.digitChar d) = some d := by
      decide
    exact hall d hd
  space_notWord := by decide
  at_notWord := by decide
  space_notDigit := by decide

/-!
## The script
-/

def filterLogLines (logLines : List String) : List String :=
  (logLines.filter fun line => "Part@".toList.isPrefixOf line.toList).map fun line =>
    String.ofList (strip line.toList)

section Script

variable (t : CharClasses)

/-- `\d+\.*\d+` -/
def numberPattern : Pattern :=
  .seq (.plus t.isDigit) (.seq (.many fun c => c == '.') (.plus t.isDigit))

/-- `Part@ (\w+) passed (\d+\.*\d+) ms` -/
def linePattern : Pattern :=
  .seq (.text "Part@ ".toList)
    (.seq (.group (.plus t.isWord))
      (.seq (.text " passed ".toList)
        (.seq (.group (numberPattern t)) (.text " ms".toList))))

def couldNotConvert (s : List Char) : String :=
  "ValueError: could not convert string to float: '" ++ String.ofList s ++ "'"

/-- `float` of what the number of the pattern can be. -/
def float (s : List Char) : Except String Binary64 :=
  match s.splitOn '.' with
  | [whole] =>
      match t.decimal.read whole with
      | some n => .ok (Binary64.round n)
      | none => .error (couldNotConvert s)
  | [whole, fraction] =>
      match t.decimal.read (whole ++ fraction) with
      | some n => .ok (Binary64.round (n / 10 ^ fraction.length))
      | none => .error (couldNotConvert s)
  | _ => .error (couldNotConvert s)

structure Collected where
  stages : Dict String (List Binary64)
  curTickMss : List Binary64
  eventCount : Nat

namespace Collected

def start : Collected where
  stages := ∅
  curTickMss := []
  eventCount := 0

def add (c : Collected) (stageName : String) (value : Binary64) : Collected :=
  if stageName = "cur_tick_ms" then
    { c with curTickMss := c.curTickMss ++ [value], eventCount := c.eventCount + 1 }
  else
    match c.stages.lookup stageName with
    | some times => { c with stages := c.stages.insert stageName (times ++ [value]) }
    | none => { c with stages := c.stages.insert stageName [value] }

def timesOf (c : Collected) (stageName : String) : List Binary64 :=
  (c.stages.lookup stageName).getD []

end Collected

def collect (c : Collected) (line : String) : Except String Collected :=
  match ((linePattern t).findall line.toList).getLast? with
  | none => .ok c
  | some groups => do
      let value ← float t (groups.getD 1 [])
      .ok (c.add (String.ofList (groups.getD 0 [])) value)

/-- The loop of `calculate`. -/
def calculateStages (logLines : List String) : Except String Collected :=
  logLines.foldlM (collect t) Collected.start

end Script

/-!
## The log
-/

/-- `str` of a number -/
def str (n : Nat) : List Char := (Numerals.digits 10 n).map Nat.digitChar

/-- `f"Part@ {k} passed {v} ms"` -/
def partLine (k : String) (v : Nat) : String :=
  "Part@ " ++ k ++ " passed " ++ String.ofList (str v) ++ " ms"

/-- A line that a workflow prints for a stage, or any other line. -/
inductive LogLine where
  | part (name : String) (v : Nat)
  | other (line : String)

namespace LogLine

def print : LogLine -> String
  | .part name v => partLine name v
  | .other line => line

/-- The name of a stage is a word. -/
def IsPrinted (t : CharClasses) : LogLine -> Prop
  | .part name _ =>
      (name ≠ "" ∧ forall c, c ∈ name.toList -> t.isWord c = true) ∧ name ≠ "cur_tick_ms"
  | .other line => ¬ "Part@".toList.isPrefixOf line.toList = true

instance IsPrinted.decidable (t : CharClasses) : DecidablePred (IsPrinted t)
  | .part name _ =>
      have : Decidable (forall c, c ∈ name.toList -> t.isWord c = true) :=
        List.decidableBAll (fun c => t.isWord c = true) name.toList
      inferInstanceAs (Decidable
        ((name ≠ "" ∧ forall c, c ∈ name.toList -> t.isWord c = true) ∧ name ≠ "cur_tick_ms"))
  | .other line => inferInstanceAs (Decidable (¬ "Part@".toList.isPrefixOf line.toList = true))

def valueFor (name : String) : LogLine -> Option Nat
  | .part k v => if k = name then some v else none
  | .other _ => none

end LogLine

def printedFor (name : String) (log : List LogLine) : List Nat :=
  log.filterMap (LogLine.valueFor name)

/-- Every stage gets the values that were printed for it, in their order. -/
def ReadsBack (t : CharClasses) (log : List LogLine) : Prop :=
  exists c, calculateStages t (filterLogLines (log.map LogLine.print)) = .ok c ∧
    forall name, c.timesOf name = (printedFor name log).map fun v : Nat => .finite v

/-- Every number has two digits, and is one of the format. -/
def TwoDigits (log : List LogLine) : Prop :=
  forall name v, LogLine.part name v ∈ log -> 10 ≤ v ∧ Binary64.IsExact v

/-!
## One line
-/

section Lines

variable {t : CharClasses}

def IsWord (t : CharClasses) (name : List Char) : Prop :=
  name ≠ [] ∧ forall c, c ∈ name -> t.isWord c = true

def IsNumber (t : CharClasses) (num : List Char) : Prop :=
  exists whole points fraction, num = whole ++ (points ++ fraction) ∧
    (whole ≠ [] ∧ forall c, c ∈ whole -> t.isDigit c = true) ∧
    (forall c, c ∈ points -> c = '.') ∧
    (fraction ≠ [] ∧ forall c, c ∈ fraction -> t.isDigit c = true)

theorem reads_numberPattern {num : List Char} {gs : List (List Char)} :
    Pattern.Reads (numberPattern t) num gs <-> IsNumber t num ∧ gs = [] := by
  unfold numberPattern IsNumber
  simp only [Pattern.Reads, Pattern.reads_plus, beq_iff_eq]
  constructor
  · rintro ⟨whole, _, _, _, rfl, rfl, ⟨hwhole, hdigits, rfl⟩, points, fraction, _, _, rfl, rfl,
      ⟨hpoints, rfl⟩, hfraction, hdigits', rfl⟩
    exact ⟨⟨whole, points, fraction, rfl, ⟨hwhole, hdigits⟩, hpoints, hfraction, hdigits'⟩, rfl⟩
  · rintro ⟨⟨whole, points, fraction, rfl, hwhole, hpoints, hfraction⟩, rfl⟩
    exact ⟨whole, points ++ fraction, [], [], rfl, rfl, ⟨hwhole.1, hwhole.2, rfl⟩, points,
      fraction, [], [], rfl, rfl, ⟨hpoints, rfl⟩, hfraction.1, hfraction.2, rfl⟩

def lineText (name num : List Char) : List Char :=
  "Part@ ".toList ++ (name ++ (" passed ".toList ++ (num ++ " ms".toList)))

theorem reads_linePattern {xs : List Char} {gs : List (List Char)} :
    Pattern.Reads (linePattern t) xs gs <->
      exists name num, xs = lineText name num ∧ gs = [name, num] ∧ IsWord t name ∧
        IsNumber t num := by
  unfold linePattern lineText IsWord
  simp only [Pattern.Reads, Pattern.reads_plus, reads_numberPattern]
  constructor
  · rintro ⟨_, _, _, _, rfl, rfl, ⟨rfl, rfl⟩, name, _, _, _, rfl, rfl,
      ⟨_, rfl, hname, hword, rfl⟩, _, _, _, _, rfl, rfl, ⟨rfl, rfl⟩, num, _, _, _, rfl, rfl,
      ⟨_, rfl, hnum, rfl⟩, rfl, rfl⟩
    exact ⟨name, num, rfl, rfl, ⟨hname, hword⟩, hnum⟩
  · rintro ⟨name, num, rfl, rfl, ⟨hname, hword⟩, hnum⟩
    exact ⟨_, _, [], [name, num], rfl, rfl, ⟨rfl, rfl⟩, name, _, [name], [num], rfl, rfl,
      ⟨[], rfl, hname, hword, rfl⟩, _, _, [], [num], rfl, rfl, ⟨rfl, rfl⟩, num, _, [num], [], rfl,
      rfl, ⟨[], rfl, hnum, rfl⟩, rfl, rfl⟩

theorem space_notMem_word {name : List Char} (h : IsWord t name) : ' ' ∉ name := by
  intro hmem
  have hspace := h.2 ' ' hmem
  rw [t.space_notWord] at hspace
  cases hspace

theorem at_notMem_word {name : List Char} (h : IsWord t name) : '@' ∉ name := by
  intro hmem
  have hat := h.2 '@' hmem
  rw [t.at_notWord] at hat
  cases hat

theorem space_notMem_number {num : List Char} (h : IsNumber t num) : ' ' ∉ num := by
  rcases h with ⟨whole, points, fraction, rfl, hwhole, hpoints, hfraction⟩
  have hdigit : t.isDigit ' ' = false := by
    unfold CharClasses.isDigit
    rw [t.space_notDigit]
    rfl
  intro hmem
  rcases List.mem_append.mp hmem with hw | hmem
  · rw [hwhole.2 ' ' hw] at hdigit
    cases hdigit
  · rcases List.mem_append.mp hmem with hp | hf
    · exact absurd (hpoints ' ' hp) (by decide)
    · rw [hfraction.2 ' ' hf] at hdigit
      cases hdigit

theorem lineText_inj {name num name' num' tail : List Char} (hname : ' ' ∉ name)
    (hnum : ' ' ∉ num) (hname' : ' ' ∉ name') (hnum' : ' ' ∉ num')
    (h : lineText name' num' ++ tail = lineText name num) :
    name' = name ∧ num' = num ∧ tail = [] := by
  unfold lineText at h
  simp only [List.append_assoc] at h
  have hfirst := List.append_cancel_left h
  rcases append_sep_inj hname' hname hfirst with ⟨rfl, hrest⟩
  have hmiddle : "passed ".toList ++ (num' ++ ' ' :: ("ms".toList ++ tail)) =
      "passed ".toList ++ (num ++ ' ' :: "ms".toList) := hrest
  have hsecond := List.append_cancel_left hmiddle
  rcases append_sep_inj hnum' hnum hsecond with ⟨rfl, hlast⟩
  have htail : "ms".toList ++ tail = "ms".toList ++ [] := hlast
  exact ⟨rfl, rfl, List.append_cancel_left htail⟩

theorem lineText_at_start {name num name' num' before tail : List Char} (hname : '@' ∉ name)
    (hnum : '@' ∉ num) (h : before ++ (lineText name' num' ++ tail) = lineText name num) :
    before = [] := by
  by_contra hne
  have hpos := List.length_pos_of_ne_nil hne
  have hrest : '@' ∉ (lineText name num).drop 5 := by
    change '@' ∉ ' ' :: (name ++ (" passed ".toList ++ (num ++ " ms".toList)))
    simp only [List.mem_cons, List.mem_append, hname, hnum, false_or, not_or]
    decide
  apply hrest
  have hdrop : ((lineText name num).drop 5).drop (before.length - 1) =
      '@' :: ' ' :: (name' ++ (" passed ".toList ++ (num' ++ " ms".toList)) ++ tail) := by
    have hlen : 5 + (before.length - 1) = before.length + 4 := by
      omega
    rw [List.drop_drop, hlen, ← h, List.drop_length_add_append]
    rfl
  apply List.mem_of_mem_drop
  rw [hdrop]
  exact List.mem_cons_self

/-!
### What is printed
-/

theorem toList_partLine (name : String) (v : Nat) :
    (partLine name v).toList = lineText name.toList (str v) := by
  unfold partLine lineText
  simp only [String.toList_append, String.toList_ofList, List.append_assoc]

theorem mem_str {v : Nat} {c : Char} (hc : c ∈ str v) : exists d, d < 10 ∧ c = Nat.digitChar d := by
  rcases List.mem_map.mp hc with ⟨d, hd, rfl⟩
  exact ⟨d, Numerals.digits_lt (by decide) hd, rfl⟩

theorem notMem_str {c : Char} (hc : forall d, d < 10 -> Nat.digitChar d ≠ c) (v : Nat) :
    c ∉ str v := by
  intro hmem
  rcases mem_str hmem with ⟨d, hd, heq⟩
  exact hc d hd heq.symm

theorem isDigit_of_mem_str {v : Nat} {c : Char} (hc : c ∈ str v) : t.isDigit c = true := by
  rcases mem_str hc with ⟨d, hd, rfl⟩
  unfold CharClasses.isDigit
  rw [t.digit_digitChar hd]
  rfl

theorem isNumber_str_iff {v : Nat} : IsNumber t (str v) <-> 10 ≤ v := by
  have hlength : (str v).length ≤ 1 <-> v < 10 :=
    t.decimal.length_print_le_one_iff (by decide)
  constructor
  · rintro ⟨whole, points, fraction, hv, ⟨hwhole, _⟩, _, hfraction, _⟩
    by_contra hsmall
    have hone := hlength.mpr (Nat.lt_of_not_le hsmall)
    rw [hv, List.length_append, List.length_append] at hone
    have hw := List.length_pos_of_ne_nil hwhole
    have hf := List.length_pos_of_ne_nil hfraction
    omega
  · intro hlarge
    have htwo : 1 < (str v).length := by
      by_contra hone
      have hsmall := hlength.mp (Nat.le_of_not_lt hone)
      omega
    cases hstr : str v with
    | nil =>
        rw [hstr] at htwo
        cases htwo
    | cons c rest =>
        have hdigit : forall d, d ∈ c :: rest -> t.isDigit d = true := by
          intro d hd
          rw [← hstr] at hd
          exact isDigit_of_mem_str hd
        refine ⟨[c], [], rest, rfl, ⟨List.cons_ne_nil c [], ?_⟩, ?_, ?_, ?_⟩
        · intro d hd
          rw [List.mem_singleton.mp hd]
          exact hdigit c List.mem_cons_self
        · intro d hd
          cases hd
        · rintro rfl
          rw [hstr] at htwo
          exact absurd htwo (Nat.lt_irrefl _)
        · intro d hd
          exact hdigit d (List.mem_cons_of_mem c hd)

theorem findall_partLine {name : String} (hname : IsWord t name.toList) (v : Nat) :
    (linePattern t).findall (partLine name v).toList =
      if 10 ≤ v then [[name.toList, str v]] else [] := by
  have hspace := space_notMem_word hname
  have hnum : ' ' ∉ str v := notMem_str (by decide) v
  have hat : '@' ∉ str v := notMem_str (by decide) v
  rw [toList_partLine]
  split
  · next hlarge =>
      apply Pattern.findall_of_reads
      · exact List.cons_ne_nil _ _
      · exact reads_linePattern.mpr
          ⟨name.toList, str v, rfl, rfl, hname, isNumber_str_iff.mpr hlarge⟩
      · intro w happend hreads
        rcases reads_linePattern.mp hreads with ⟨name', num', hread, hgroups, hname', hnum'⟩
        rw [hread] at happend
        rcases lineText_inj hspace hnum (space_notMem_word hname') (space_notMem_number hnum')
          happend with ⟨rfl, rfl, _⟩
        exact ⟨hread, hgroups⟩
  · next hsmall =>
      apply Pattern.findall_eq_nil
      intro before w happend hreads
      rcases reads_linePattern.mp hreads with ⟨name', num', hread, _, hname', hnum'⟩
      rw [hread] at happend
      cases lineText_at_start (at_notMem_word hname) hat happend
      rcases lineText_inj hspace hnum (space_notMem_word hname') (space_notMem_number hnum')
        happend with ⟨_, rfl, _⟩
      exact hsmall (isNumber_str_iff.mp hnum')

theorem float_str (v : Nat) : float t (str v) = .ok (Binary64.round v) := by
  have hpoint : '.' ∉ str v := notMem_str (by decide) v
  have hread : t.decimal.read (str v) = some v := t.decimal.read_print (by decide) v
  unfold float
  rw [List.splitOn_eq_singleton hpoint]
  simp only [hread]

theorem collect_partLine (c : Collected) {name : String} (hname : IsWord t name.toList)
    (v : Nat) :
    collect t c (partLine name v) =
      .ok (if 10 ≤ v then c.add name (Binary64.round v) else c) := by
  unfold collect
  rw [findall_partLine hname]
  split
  · next hlast =>
      split at hlast
      · cases hlast
      · next hsmall => rw [if_neg hsmall]
  · next groups hlast =>
      split at hlast
      · next hlarge =>
          cases hlast
          rw [if_pos hlarge]
          change (float t (str v) >>= fun value =>
            .ok (c.add (String.ofList name.toList) value)) = _
          rw [float_str, ok_bind, String.ofList_toList]
      · cases hlast

/-!
## A whole log
-/

def Collected.addLine (c : Collected) : LogLine -> Collected
  | .part name v => if 10 ≤ v then c.add name (Binary64.round v) else c
  | .other _ => c

def collectedFor (name : String) (log : List LogLine) : List Binary64 :=
  ((printedFor name log).filter fun v => 10 ≤ v).map fun v : Nat => Binary64.round v

theorem filterLogLines_partLine (name : String) (v : Nat) (rest : List String) :
    filterLogLines (partLine name v :: rest) = partLine name v :: filterLogLines rest := by
  have hstart : "Part@".toList.isPrefixOf (partLine name v).toList = true := by
    rw [toList_partLine]
    rfl
  have hstrip : strip (partLine name v).toList = (partLine name v).toList := by
    rw [toList_partLine]
    apply strip_eq_self
    · intro c hc
      cases hc
      decide
    · intro c hc
      have hlast : lineText name.toList (str v) =
          ("Part@ ".toList ++ (name.toList ++ (" passed ".toList ++ (str v ++ " m".toList)))) ++
            ['s'] := by
        unfold lineText
        simp only [List.append_assoc]
        rfl
      rw [hlast, List.getLast?_concat] at hc
      cases hc
      decide
  unfold filterLogLines
  rw [List.filter_cons, if_pos hstart, List.map_cons, hstrip, String.ofList_toList]

theorem filterLogLines_other {line : String}
    (h : ¬ "Part@".toList.isPrefixOf line.toList = true) (rest : List String) :
    filterLogLines (line :: rest) = filterLogLines rest := by
  unfold filterLogLines
  rw [List.filter_cons, if_neg h]

theorem collect_log {log : List LogLine} (h : forall l, l ∈ log -> l.IsPrinted t)
    (c : Collected) :
    (filterLogLines (log.map LogLine.print)).foldlM (collect t) c =
      .ok (log.foldl Collected.addLine c) := by
  induction log generalizing c with
  | nil => rfl
  | cons l rest ih =>
      have hl := h l List.mem_cons_self
      have hrest := ih fun l' hl' => h l' (List.mem_cons_of_mem l hl')
      cases l with
      | part name v =>
          have hword : IsWord t name.toList := by
            refine ⟨?_, hl.1.2⟩
            intro hnil
            exact hl.1.1 (String.toList_eq_nil_iff.mp hnil)
          change (filterLogLines (partLine name v :: rest.map LogLine.print)).foldlM (collect t) c
            = _
          rw [filterLogLines_partLine, List.foldlM_cons, collect_partLine c hword, ok_bind, hrest]
          rfl
      | other line =>
          change (filterLogLines (line :: rest.map LogLine.print)).foldlM (collect t) c = _
          rw [filterLogLines_other hl, hrest]
          rfl

theorem Collected.stages_add (c : Collected) {k : String} (hk : k ≠ "cur_tick_ms")
    (value : Binary64) : (c.add k value).stages = c.stages.insert k (c.timesOf k ++ [value]) := by
  unfold Collected.add Collected.timesOf
  rw [if_neg hk]
  cases c.stages.lookup k with
  | none => rfl
  | some times => rfl

theorem Collected.timesOf_add (c : Collected) {k : String} (hk : k ≠ "cur_tick_ms")
    (value : Binary64) (name : String) :
    (c.add k value).timesOf name = c.timesOf name ++ if k = name then [value] else [] := by
  have hstages := c.stages_add hk value
  unfold Collected.timesOf at hstages ⊢
  rw [hstages]
  by_cases heq : k = name
  · subst heq
    rw [AList.lookup_insert, if_pos rfl]
    rfl
  · rw [AList.lookup_insert_ne (Ne.symm heq), if_neg heq, List.append_nil]

theorem timesOf_addLine {l : LogLine} (h : l.IsPrinted t) (c : Collected) (name : String) :
    (c.addLine l).timesOf name = c.timesOf name ++ collectedFor name [l] := by
  cases l with
  | other line => exact (List.append_nil _).symm
  | part k v =>
      unfold collectedFor printedFor LogLine.valueFor
      change (if 10 ≤ v then c.add k (Binary64.round v) else c).timesOf name = _
      by_cases hlarge : 10 ≤ v
      · rw [if_pos hlarge, Collected.timesOf_add c h.2]
        by_cases hk : k = name
        · simp [hk, hlarge]
        · simp [hk]
      · by_cases hk : k = name
        · simp [hk, hlarge]
        · simp [hk, hlarge]

theorem collectedFor_cons (name : String) (l : LogLine) (rest : List LogLine) :
    collectedFor name (l :: rest) = collectedFor name [l] ++ collectedFor name rest := by
  unfold collectedFor printedFor
  rw [← List.map_append, ← List.filter_append, ← List.filterMap_append, List.singleton_append]

theorem timesOf_log {log : List LogLine} (h : forall l, l ∈ log -> l.IsPrinted t)
    (c : Collected) (name : String) :
    (log.foldl Collected.addLine c).timesOf name = c.timesOf name ++ collectedFor name log := by
  induction log generalizing c with
  | nil => exact (List.append_nil _).symm
  | cons l rest ih =>
      have hrest := ih (fun l' hl' => h l' (List.mem_cons_of_mem l hl')) (c.addLine l)
      rw [timesOf_addLine (h l List.mem_cons_self), List.append_assoc, ← collectedFor_cons]
        at hrest
      exact hrest

theorem mem_printedFor {name : String} {v : Nat} {log : List LogLine} :
    v ∈ printedFor name log <-> LogLine.part name v ∈ log := by
  unfold printedFor
  rw [List.mem_filterMap]
  constructor
  · rintro ⟨l, hl, hv⟩
    cases l with
    | other line => cases hv
    | part k w =>
        have hvalue : (if k = name then some w else none) = some v := hv
        split at hvalue
        · next hk =>
            cases hk
            cases hvalue
            exact hl
        · cases hvalue
  · intro hl
    exact ⟨_, hl, if_pos rfl⟩

theorem map_filter_eq_map_iff {alpha beta : Type} {p : alpha -> Bool} {f g : alpha -> beta}
    {l : List alpha} :
    (l.filter p).map f = l.map g <-> forall x, x ∈ l -> p x = true ∧ f x = g x := by
  constructor
  · intro h
    have hlength := congrArg List.length h
    rw [List.length_map, List.length_map] at hlength
    have hall := List.length_filter_eq_length_iff.mp hlength
    rw [List.filter_eq_self.mpr hall] at h
    exact fun x hx => ⟨hall x hx, List.map_inj_left.mp h x hx⟩
  · intro h
    rw [List.filter_eq_self.mpr fun x hx => (h x hx).1]
    exact List.map_inj_left.mpr fun x hx => (h x hx).2

theorem collectedFor_eq_iff {name : String} {log : List LogLine} :
    (collectedFor name log = (printedFor name log).map fun v : Nat => .finite v) <->
      forall v, LogLine.part name v ∈ log -> 10 ≤ v ∧ Binary64.IsExact v := by
  unfold collectedFor
  rw [map_filter_eq_map_iff]
  simp only [mem_printedFor, decide_eq_true_eq, Binary64.round_natCast_iff]

/-- A log is read back exactly if each of its numbers has two digits and is one of the
format. -/
theorem log_read_back_iff (t : CharClasses) (log : List LogLine)
    (h : forall l, l ∈ log -> l.IsPrinted t) : ReadsBack t log <-> TwoDigits log := by
  have hrun := collect_log h Collected.start
  have htimes : forall name,
      (log.foldl Collected.addLine Collected.start).timesOf name = collectedFor name log :=
    fun name => timesOf_log h Collected.start name
  constructor
  · rintro ⟨c, hc, hread⟩ name
    have heq : Except.ok (log.foldl Collected.addLine Collected.start) = Except.ok c :=
      hrun.symm.trans hc
    cases heq
    rw [← collectedFor_eq_iff, ← htimes]
    exact hread name
  · intro hdigits
    refine ⟨_, hrun, fun name => ?_⟩
    rw [htimes]
    exact collectedFor_eq_iff.mpr (hdigits name)

def mixedLog : List LogLine :=
  [.other "workflow e2e time: 112", .part "stage_time" 112, .part "sd_time" 10, .other "",
    .part "stage_time" 98]

theorem log_read_back_mixedLog : ReadsBack asciiClasses mixedLog := by
  apply (log_read_back_iff asciiClasses mixedLog (by decide)).mpr
  intro name v hv
  have hvalues : v = 112 ∨ v = 10 ∨ v = 98 := by
    simp [mixedLog] at hv
    omega
  refine ⟨?_, Binary64.isExact_of_lt ?_⟩
  · omega
  · omega

/-- A number of one digit is lost. -/
theorem not_log_read_back_seven :
    ¬ forall log : List LogLine, (forall l, l ∈ log -> l.IsPrinted asciiClasses) ->
      ReadsBack asciiClasses log := by
  intro h
  have hprinted : forall l, l ∈ [LogLine.part "es_time" 7] -> l.IsPrinted asciiClasses := by
    rw [List.forall_mem_singleton]
    decide
  rcases h _ hprinted with ⟨c, hc, hread⟩
  cases hc
  exact absurd (hread "es_time") (by decide)

end Lines

end Workflow
end Dmerge
