import Dmerge.Foundation.Attempts
import Dmerge.Foundation.Numerals
import Dmerge.Foundation.Separators
import Dmerge.Kernel.Commands
import Dmerge.Workflow.Strings

/-!
# The address of a machine

The kernel names a machine by an address of groups of hexadecimal digits.  Before an event
carries it, a function brings it into one form, whatever separates the groups and however
many digits they have.  The connect command copies an address of that form as a whole.
-/

namespace Dmerge
namespace Workflow

open Foundation

/-!
## Integers as text
-/

/-- Letters are read in both cases, and printed in lower case.  Python reads every Unicode
decimal digit as well; a character outside ASCII is no digit here. -/
def hexDigit (c : Char) : Option Nat :=
  if 48 ≤ c.toNat ∧ c.toNat ≤ 57 then some (c.toNat - 48)
  else if 97 ≤ c.toNat ∧ c.toNat ≤ 102 then some (c.toNat - 87)
  else if 65 ≤ c.toNat ∧ c.toNat ≤ 70 then some (c.toNat - 55)
  else none

theorem hexDigit_lt {c : Char} {d : Nat} (h : hexDigit c = some d) : d < 16 := by
  unfold hexDigit at h
  split at h
  · cases h
    omega
  · split at h
    · cases h
      omega
    · split at h
      · cases h
        omega
      · cases h

def hexAlphabet : Alphabet 16 where
  digit := hexDigit
  char := Nat.digitChar
  digit_lt := hexDigit_lt
  digit_char := by
    intro d hd
    have hall : forall d, d < 16 -> hexDigit (Nat.digitChar d) = some d := by
      decide
    exact hall d hd

def splitSign : List Char -> Bool × List Char
  | '-' :: rest => (true, rest)
  | '+' :: rest => (false, rest)
  | s => (false, s)

def dropMark : List Char -> List Char
  | '0' :: 'x' :: '_' :: rest => rest
  | '0' :: 'X' :: '_' :: rest => rest
  | '0' :: 'x' :: rest => rest
  | '0' :: 'X' :: rest => rest
  | s => s

def invalidLiteral (s : List Char) : String :=
  "ValueError: invalid literal for int() with base 16: '" ++ String.ofList s ++ "'"

/-- `int(s, 16)` of ASCII text.  Single underscores may stand between digits. -/
def int16 (s : List Char) : Except String Int :=
  let (negative, rest) := splitSign (strip s)
  let groups := (dropMark rest).splitOn '_'
  if groups.any List.isEmpty then .error (invalidLiteral s)
  else
    match hexAlphabet.read groups.flatten with
    | none => .error (invalidLiteral s)
    | some n => .ok (if negative then -(n : Int) else n)

def hex (n : Int) : List Char :=
  (if n < 0 then ['-'] else []) ++ '0' :: 'x' :: hexAlphabet.print n.natAbs

/-- `str.zfill`: a sign stays in front. -/
def zfill (width : Nat) (s : List Char) : List Char :=
  let zeros := List.replicate (width - s.length) '0'
  match s with
  | '+' :: rest => '+' :: (zeros ++ rest)
  | '-' :: rest => '-' :: (zeros ++ rest)
  | s => zeros ++ s

/-!
## The code
-/

def fillField (i : List Char) : Except String (List Char) := do
  let n ← int16 i
  .ok (zfill 4 ((hex n).drop 2))

def fillPart (part : List Char) : Except String (List Char) := do
  let fields ← (part.splitOn '.').mapM fillField
  .ok ([':'].intercalate fields)

def fillGid (gid : String) : Except String String := do
  let newMacIdParts ← (gid.toList.splitOn ':').mapM fillPart
  .ok (String.ofList ([':'].intercalate newMacIdParts))

/-!
## What an address stands for
-/

def groupsOf (gid : String) : List (List Char) :=
  gid.toList.splitOnP fun c => c == ':' || c == '.'

def groupValue (g : List Char) : Nat := (hexAlphabet.read g).getD 0

def valuesOf (gid : String) : List Nat := (groupsOf gid).map groupValue

def IsGroup (g : List Char) : Prop :=
  g ≠ [] ∧ exists n, hexAlphabet.read g = some n ∧ n < 65536

instance (g : List Char) : Decidable (IsGroup g) :=
  inferInstanceAs (Decidable (g ≠ [] ∧ exists n, hexAlphabet.read g = some n ∧ n < 65536))

def IsGid (gid : String) : Prop := forall g, g ∈ groupsOf gid -> IsGroup g

instance (gid : String) : Decidable (IsGid gid) :=
  inferInstanceAs (Decidable (forall g, g ∈ groupsOf gid -> IsGroup g))

def fixed (n : Nat) : List Char := hexAlphabet.printPadded 4 n

def normal (values : List Nat) : String := String.ofList ([':'].intercalate (values.map fixed))

/-!
## One group
-/

section Groups

variable {s g : List Char} {n : Nat}

theorem digit_of_read (h : hexAlphabet.read s = some n) {c : Char} (hc : c ∈ s) :
    (hexDigit c).isSome := by
  unfold Alphabet.read at h
  rcases Option.map_eq_some_iff.mp h with ⟨ds, hds, -⟩
  clear h
  induction s generalizing ds with
  | nil => cases hc
  | cons a rest ih =>
      rw [List.mapM_cons] at hds
      cases ha : hexAlphabet.digit a with
      | none =>
          rw [ha] at hds
          cases hds
      | some d =>
          rcases List.mem_cons.mp hc with rfl | hrest
          · exact Option.isSome_iff_exists.mpr ⟨d, ha⟩
          · rw [ha] at hds
            cases hmap : rest.mapM hexAlphabet.digit with
            | none =>
                rw [hmap] at hds
                cases hds
            | some es => exact ih hrest es hmap

theorem notMem_of_read (h : hexAlphabet.read s = some n) {c : Char} (hc : hexDigit c = none) :
    c ∉ s := by
  intro hmem
  have hdigit := digit_of_read h hmem
  rw [hc] at hdigit
  cases hdigit

theorem isSpace_of_digit {c : Char} (hc : (hexDigit c).isSome) : isSpace c = false := by
  unfold hexDigit at hc
  have hrange : (48 ≤ c.toNat ∧ c.toNat ≤ 57) ∨ (97 ≤ c.toNat ∧ c.toNat ≤ 102) ∨
      (65 ≤ c.toNat ∧ c.toNat ≤ 70) := by
    split at hc
    · next h => exact Or.inl h
    · split at hc
      · next h => exact Or.inr (Or.inl h)
      · split at hc
        · next h => exact Or.inr (Or.inr h)
        · cases hc
  unfold isSpace
  simp only [Bool.or_eq_false_iff, Bool.and_eq_false_iff, decide_eq_false_iff_not,
    beq_eq_false_iff_ne]
  omega

theorem strip_of_read (h : hexAlphabet.read s = some n) : strip s = s := by
  have hspace : forall c, c ∈ s -> isSpace c = false := by
    intro c hc
    exact isSpace_of_digit (digit_of_read h hc)
  apply strip_eq_self
  · intro c hc
    exact hspace c (List.mem_of_head? hc)
  · intro c hc
    exact hspace c (List.mem_of_getLast? hc)

theorem splitSign_of_read (h : hexAlphabet.read s = some n) : splitSign s = (false, s) := by
  unfold splitSign
  split
  · exact absurd List.mem_cons_self (notMem_of_read h (by decide))
  · exact absurd List.mem_cons_self (notMem_of_read h (by decide))
  · rfl

theorem dropMark_of_read (h : hexAlphabet.read s = some n) : dropMark s = s := by
  have hx : 'x' ∉ s := notMem_of_read h (by decide)
  have hX : 'X' ∉ s := notMem_of_read h (by decide)
  unfold dropMark
  split
  · simp at hx
  · simp at hX
  · simp at hx
  · simp at hX
  · rfl

theorem int16_of_read (hne : s ≠ []) (h : hexAlphabet.read s = some n) :
    int16 s = .ok (n : Int) := by
  have hunderscore : '_' ∉ s := notMem_of_read h (by decide)
  unfold int16
  rw [strip_of_read h, splitSign_of_read h]
  simp only [dropMark_of_read h, List.splitOn_eq_singleton hunderscore, List.flatten_singleton, h]
  cases s with
  | nil => exact absurd rfl hne
  | cons c rest => rfl

theorem zfill_print (w n : Nat) :
    zfill w (hexAlphabet.print n) = hexAlphabet.printPadded w n := by
  have hread := hexAlphabet.read_print (by decide) n
  unfold zfill
  split
  · next heq =>
      rw [heq] at hread
      exact absurd List.mem_cons_self (notMem_of_read hread (by decide))
  · next heq =>
      rw [heq] at hread
      exact absurd List.mem_cons_self (notMem_of_read hread (by decide))
  · unfold Alphabet.printPadded Alphabet.print Numerals.pad
    rw [List.map_append, List.map_replicate, List.length_map]
    rfl

theorem fillField_of_read (hne : g ≠ []) (h : hexAlphabet.read g = some n) :
    fillField g = .ok (fixed n) := by
  have hnonneg : ¬ ((n : Int) < 0) := by
    omega
  have hdrop : (hex (n : Int)).drop 2 = hexAlphabet.print n := by
    unfold hex
    rw [if_neg hnonneg]
    rfl
  unfold fillField fixed
  rw [int16_of_read hne h, ok_bind, hdrop, zfill_print]

theorem fillField_of_isGroup (h : IsGroup g) : fillField g = .ok (fixed (groupValue g)) := by
  rcases h with ⟨hne, n, hread, _⟩
  unfold groupValue
  rw [hread]
  exact fillField_of_read hne hread

/-!
### What is printed
-/

theorem mem_fixed {n : Nat} {c : Char} (hc : c ∈ fixed n) : exists d, d < 16 ∧ c = Nat.digitChar d := by
  rcases List.mem_map.mp hc with ⟨d, hd, rfl⟩
  exact ⟨d, Numerals.pad_lt (by decide) (fun _ => Numerals.digits_lt (by decide)) hd, rfl⟩

theorem read_fixed (n : Nat) : hexAlphabet.read (fixed n) = some n :=
  hexAlphabet.read_printPadded (by decide) 4 n

theorem length_fixed {n : Nat} (hn : n < 65536) : (fixed n).length = 4 :=
  hexAlphabet.length_printPadded (by decide) (by decide) hn

theorem isGroup_fixed {n : Nat} (hn : n < 65536) : IsGroup (fixed n) := by
  refine ⟨?_, n, read_fixed n, hn⟩
  intro hnil
  have hlen := length_fixed hn
  rw [hnil] at hlen
  cases hlen

@[simp] theorem groupValue_fixed (n : Nat) : groupValue (fixed n) = n := by
  unfold groupValue
  rw [read_fixed]
  rfl

theorem groupValue_lt {g : List Char} (h : IsGroup g) : groupValue g < 65536 := by
  rcases h with ⟨_, n, hread, hn⟩
  unfold groupValue
  rw [hread]
  exact hn

end Groups

/-!
## The whole address
-/

section Addresses

variable {gid : String} {values : List Nat}

theorem groupsOf_eq (gid : String) :
    groupsOf gid = (gid.toList.splitOn ':').flatMap fun part => part.splitOn '.' :=
  (splitOnP_flatMap (· == ':') (· == '.') gid.toList).symm

theorem valuesOf_ne_nil (gid : String) : valuesOf gid ≠ [] := by
  unfold valuesOf
  intro hnil
  exact List.splitOnP_ne_nil _ _ (List.map_eq_nil_iff.mp hnil)

theorem valuesOf_lt (h : IsGid gid) : forall n, n ∈ valuesOf gid -> n < 65536 := by
  intro n hn
  rcases List.mem_map.mp hn with ⟨g, hg, rfl⟩
  exact groupValue_lt (h g hg)

def fixedPart (part : List Char) : List (List Char) :=
  (part.splitOn '.').map fun g => fixed (groupValue g)

theorem fillPart_eq {part : List Char} (h : forall g, g ∈ part.splitOn '.' -> IsGroup g) :
    fillPart part = .ok ([':'].intercalate (fixedPart part)) := by
  have hfields : (part.splitOn '.').mapM fillField = .ok (fixedPart part) :=
    mapM_ok fun g hg => fillField_of_isGroup (h g hg)
  unfold fillPart
  rw [hfields, ok_bind]

theorem fixedPart_ne_nil (part : List Char) : fixedPart part ≠ [] := by
  intro hnil
  exact List.splitOn_ne_nil _ _ (List.map_eq_nil_iff.mp hnil)

theorem fillGid_eq (h : IsGid gid) : fillGid gid = .ok (normal (valuesOf gid)) := by
  have hparts : (gid.toList.splitOn ':').mapM fillPart =
      .ok ((gid.toList.splitOn ':').map fun part => [':'].intercalate (fixedPart part)) := by
    apply mapM_ok
    intro part hmem
    apply fillPart_eq
    intro g hg
    apply h
    rw [groupsOf_eq]
    exact List.mem_flatMap.mpr ⟨part, hmem, hg⟩
  have hfields : (gid.toList.splitOn ':').flatMap fixedPart = (valuesOf gid).map fixed := by
    unfold valuesOf
    rw [groupsOf_eq, List.map_map, List.map_flatMap]
    rfl
  unfold fillGid normal
  rw [hparts, ok_bind, intercalate_flatMap [':'] (fun part _ => fixedPart_ne_nil part), hfields]

theorem notMem_fixed {n : Nat} {c : Char} (hc : hexDigit c = none) : c ∉ fixed n :=
  notMem_of_read (read_fixed n) hc

theorem groupsOf_normal (hne : values ≠ []) : groupsOf (normal values) = values.map fixed := by
  have hcolon : forall f, f ∈ values.map fixed -> ':' ∉ f := by
    intro f hf
    rcases List.mem_map.mp hf with ⟨n, _, rfl⟩
    exact notMem_fixed (by decide)
  have hdot : forall f, f ∈ values.map fixed -> f.splitOn '.' = [f] := by
    intro f hf
    rcases List.mem_map.mp hf with ⟨n, _, rfl⟩
    exact List.splitOn_eq_singleton (notMem_fixed (by decide))
  have hfields : values.map fixed ≠ [] := fun hnil => hne (List.map_eq_nil_iff.mp hnil)
  rw [groupsOf_eq]
  unfold normal
  rw [String.toList_ofList, List.splitOn_intercalate ':' hcolon hfields,
    List.flatMap_congr hdot]
  exact List.flatMap_singleton' _

theorem valuesOf_normal (hne : values ≠ []) : valuesOf (normal values) = values := by
  unfold valuesOf
  rw [groupsOf_normal hne, List.map_map]
  have hid : groupValue ∘ fixed = id := by
    funext n
    exact groupValue_fixed n
  rw [hid, List.map_id]

theorem isGid_normal (hne : values ≠ []) (hlt : forall n, n ∈ values -> n < 65536) :
    IsGid (normal values) := by
  intro g hg
  rw [groupsOf_normal hne] at hg
  rcases List.mem_map.mp hg with ⟨n, hn, rfl⟩
  exact isGroup_fixed (hlt n hn)

theorem normal_inj {values' : List Nat} (hne : values ≠ []) (hne' : values' ≠ []) :
    normal values = normal values' <-> values = values' := by
  constructor
  · intro h
    rw [← valuesOf_normal hne, h, valuesOf_normal hne']
  · rintro rfl
    rfl

end Addresses

/-!
## The bytes of an address
-/

def utf8 (s : String) : Bytes := s.toByteArray.data.toList

theorem fromUtf8_utf8 (s : String) : Kernel.fromUtf8 (utf8 s) = some (utf8 s) := by
  unfold Kernel.fromUtf8 utf8
  apply if_pos
  rw [Array.toArray_toList]
  exact ByteArray.validateUTF8_eq_true_iff.mpr s.isValidUTF8

theorem length_utf8_ofList {l : List Char} (h : forall c, c ∈ l -> c.utf8Size = 1) :
    (utf8 (String.ofList l)).length = l.length := by
  unfold utf8
  rw [String.toByteArray_ofList]
  unfold List.utf8Encode
  rw [List.data_toByteArray, List.length_flatMap]
  have hones : l.map (fun c => (String.utf8EncodeChar c).length) = l.map fun _ => 1 := by
    apply List.map_congr_left
    intro c hc
    rw [String.length_utf8EncodeChar, h c hc]
  rw [hones]
  simp

theorem connectGid_eq {s : String} (hlen : (utf8 s).length = Kernel.gidLen)
    {user : Kernel.UserMemory} {arg : UInt64} {tail : Bytes}
    (huser : user (Kernel.readConnectReq (Kernel.copyFromUser user arg 16)).gid =
      utf8 s ++ tail) :
    Kernel.connectGid user arg = utf8 s := by
  unfold Kernel.connectGid
  generalize (Kernel.readConnectReq (Kernel.copyFromUser user arg 16)).gid = addr at huser
  unfold Kernel.copyFromUser
  rw [huser, ← hlen, List.append_assoc, List.take_left]

theorem length_utf8_normal {values : List Nat} (hne : values ≠ [])
    (hlt : forall n, n ∈ values -> n < 65536) :
    (utf8 (normal values)).length + 1 = values.length * 5 := by
  have hascii : forall d, d < 16 -> (Nat.digitChar d).utf8Size = 1 := by
    decide
  have hfields : values.map fixed ≠ [] := fun hnil => hne (List.map_eq_nil_iff.mp hnil)
  unfold normal
  rw [length_utf8_ofList, length_intercalate ':' hfields (w := 4), List.length_map]
  · intro f hf
    rcases List.mem_map.mp hf with ⟨n, hn, rfl⟩
    exact length_fixed (hlt n hn)
  · intro c hc
    rcases mem_intercalate hc with rfl | ⟨f, hf, hcf⟩
    · decide
    · rcases List.mem_map.mp hf with ⟨n, _, rfl⟩
      rcases mem_fixed hcf with ⟨d, hd, rfl⟩
      exact hascii d hd

/-!
## One form for every address
-/

/-- Groups of four digits in lower case stand for the numbers of the address, in its order,
and a colon stands between two of them. -/
def FixedForm (gid out : String) : Prop :=
  exists fields : List (List Char),
    out.toList = [':'].intercalate fields ∧ fields.map groupValue = valuesOf gid ∧
      forall f, f ∈ fields -> f.length = 4 ∧ forall c, c ∈ f -> c ∈ "0123456789abcdef".toList

/-- The connect command gets all bytes of an address, and nothing that lies behind them. -/
def CopiedWhole (out : String) : Prop :=
  (utf8 out).length = Kernel.gidLen ∧
    forall (user : Kernel.UserMemory) (arg : UInt64) (tail : Bytes),
      user (Kernel.readConnectReq (Kernel.copyFromUser user arg 16)).gid = utf8 out ++ tail ->
        Kernel.fromUtf8 (Kernel.connectGid user arg) = some (utf8 out)

theorem fixedForm_normal {gid : String} (h : IsGid gid) : FixedForm gid (normal (valuesOf gid)) := by
  have hlower : forall d, d < 16 -> Nat.digitChar d ∈ "0123456789abcdef".toList := by
    decide
  refine ⟨(valuesOf gid).map fixed, String.toList_ofList, ?_, ?_⟩
  · have hid : groupValue ∘ fixed = id := by
      funext n
      exact groupValue_fixed n
    rw [List.map_map, hid, List.map_id]
  · intro f hf
    rcases List.mem_map.mp hf with ⟨n, hn, rfl⟩
    constructor
    · exact length_fixed (valuesOf_lt h n hn)
    · intro c hc
      rcases mem_fixed hc with ⟨d, hd, rfl⟩
      exact hlower d hd

theorem copiedWhole_normal {gid : String} (h : IsGid gid) (height : (groupsOf gid).length = 8) :
    CopiedWhole (normal (valuesOf gid)) := by
  have hlen : (utf8 (normal (valuesOf gid))).length = Kernel.gidLen := by
    have hcount := length_utf8_normal (valuesOf_ne_nil gid) (valuesOf_lt h)
    have hvalues : (valuesOf gid).length = 8 := by
      unfold valuesOf
      rw [List.length_map, height]
    rw [hvalues] at hcount
    unfold Kernel.gidLen
    omega
  refine ⟨hlen, ?_⟩
  intro user arg tail huser
  rw [connectGid_eq hlen huser, fromUtf8_utf8]

/-- An address has one form, which depends on the numbers of its groups only and stays as it
is; eight groups fill what the connect command copies. -/
theorem fillGid_normalises (gid : String) (h : IsGid gid) :
    exists out, fillGid gid = .ok out ∧ FixedForm gid out ∧ fillGid out = .ok out ∧
      (forall gid', IsGid gid' -> (fillGid gid' = .ok out <-> valuesOf gid' = valuesOf gid)) ∧
      ((groupsOf gid).length = 8 -> CopiedWhole out) := by
  have hne := valuesOf_ne_nil gid
  refine ⟨normal (valuesOf gid), fillGid_eq h, fixedForm_normal h, ?_, ?_, copiedWhole_normal h⟩
  · rw [fillGid_eq (isGid_normal hne (valuesOf_lt h)), valuesOf_normal hne]
  · intro gid' h'
    rw [fillGid_eq h', Except.ok.injEq]
    exact normal_inj (valuesOf_ne_nil gid') hne

theorem fillGid_normalises_eight :
    fillGid "Fe80:0.0:0:ec0d.9a03:ca:2fFc" = .ok "fe80:0000:0000:0000:ec0d:9a03:00ca:2ffc" ∧
      CopiedWhole "fe80:0000:0000:0000:ec0d:9a03:00ca:2ffc" := by
  have hgid : IsGid "Fe80:0.0:0:ec0d.9a03:ca:2fFc" := by
    decide +kernel
  rcases fillGid_normalises "Fe80:0.0:0:ec0d.9a03:ca:2fFc" hgid with
    ⟨out, hout, _, _, _, hcopied⟩
  have hfilled : fillGid "Fe80:0.0:0:ec0d.9a03:ca:2fFc" =
      .ok "fe80:0000:0000:0000:ec0d:9a03:00ca:2ffc" := by
    decide +kernel
  rw [hout] at hfilled
  cases hfilled
  exact ⟨hout, hcopied (by decide +kernel)⟩

end Workflow
end Dmerge
