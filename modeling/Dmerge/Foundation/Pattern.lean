import Mathlib.Data.List.Basic

/-!
# Patterns

Regular expressions with groups, as far as loops over classes of characters go.  At one place
of a text a pattern can match in several ways, which are tried from the greediest one on.
Which of them come first does not matter where only one text is possible, and what the texts
are is said without the order.  No pattern is looked for that matches the empty text.
-/

namespace Dmerge
namespace Foundation

inductive Pattern where
  | text (s : List Char)
  | one (p : Char -> Bool)
  | many (p : Char -> Bool)
  | group (r : Pattern)
  | seq (r s : Pattern)

structure Way where
  read : List Char
  groups : List (List Char)
  rest : List Char
  deriving DecidableEq, Repr

namespace Pattern

def runs (p : Char -> Bool) : List Char -> List Way
  | [] => [{ read := [], groups := [], rest := [] }]
  | c :: rest =>
      let stop : Way := { read := [], groups := [], rest := c :: rest }
      if p c = true then
        (runs p rest).map (fun w => { w with read := c :: w.read }) ++ [stop]
      else [stop]

def ways : Pattern -> List Char -> List Way
  | text s, xs =>
      if s.isPrefixOf xs = true then [{ read := s, groups := [], rest := xs.drop s.length }]
      else []
  | one _, [] => []
  | one p, c :: rest => if p c = true then [{ read := [c], groups := [], rest := rest }] else []
  | many p, xs => runs p xs
  | group r, xs => (ways r xs).map fun w => { w with groups := w.read :: w.groups }
  | seq r s, xs =>
      (ways r xs).flatMap fun w =>
        (ways s w.rest).map fun w' =>
          { read := w.read ++ w'.read, groups := w.groups ++ w'.groups, rest := w'.rest }

/-- `+` -/
def plus (p : Char -> Bool) : Pattern := seq (one p) (many p)

/-- The groups of the matches that do not overlap, from the left to the right.  The number
says how many characters the last match has still read. -/
def findallFrom (r : Pattern) : Nat -> List Char -> List (List (List Char))
  | _, [] => []
  | n + 1, _ :: rest => findallFrom r n rest
  | 0, c :: rest =>
      match (ways r (c :: rest)).head? with
      | some w => w.groups :: findallFrom r (w.read.length - 1) rest
      | none => findallFrom r 0 rest

/-- `re.findall` -/
def findall (r : Pattern) (xs : List Char) : List (List (List Char)) := findallFrom r 0 xs

/-!
## What a pattern reads
-/

def Reads : Pattern -> List Char -> List (List Char) -> Prop
  | text s, xs, gs => xs = s ∧ gs = []
  | one p, xs, gs => (exists c, p c = true ∧ xs = [c]) ∧ gs = []
  | many p, xs, gs => (forall c, c ∈ xs -> p c = true) ∧ gs = []
  | group r, xs, gs => exists hs, gs = xs :: hs ∧ Reads r xs hs
  | seq r s, xs, gs =>
      exists ys zs hs ks, xs = ys ++ zs ∧ gs = hs ++ ks ∧ Reads r ys hs ∧ Reads s zs ks

theorem mem_runs {p : Char -> Bool} {xs : List Char} {w : Way} :
    w ∈ runs p xs <->
      w.read ++ w.rest = xs ∧ (forall c, c ∈ w.read -> p c = true) ∧ w.groups = [] := by
  rcases w with ⟨read, groups, rest⟩
  induction xs generalizing read with
  | nil =>
      unfold runs
      rw [List.mem_singleton]
      constructor
      · intro h
        cases h
        exact ⟨rfl, fun c hc => (by cases hc), rfl⟩
      · rintro ⟨happend, _, hgroups⟩
        rcases List.append_eq_nil_iff.mp happend with ⟨hread, hrest⟩
        cases hread
        cases hrest
        cases hgroups
        rfl
  | cons c xs ih =>
      unfold runs
      simp only
      constructor
      · intro h
        split at h
        · next hp =>
            rcases List.mem_append.mp h with hmap | hstop
            · rcases List.mem_map.mp hmap with ⟨⟨read', groups', rest'⟩, hw, heq⟩
              rcases (ih read').mp (by cases heq; exact hw) with ⟨happend, hall, hgroups⟩
              cases heq
              refine ⟨?_, ?_, hgroups⟩
              · exact congrArg (c :: ·) happend
              · intro d hd
                rcases List.mem_cons.mp hd with rfl | hd
                · exact hp
                · exact hall d hd
            · cases List.mem_singleton.mp hstop
              exact ⟨rfl, fun d hd => (by cases hd), rfl⟩
        · cases List.mem_singleton.mp h
          exact ⟨rfl, fun d hd => (by cases hd), rfl⟩
      · rintro ⟨happend, hall, hgroups⟩
        cases read with
        | nil =>
            have hstop : (⟨[], groups, rest⟩ : Way) = ⟨[], [], c :: xs⟩ := by
              cases happend
              cases hgroups
              rfl
            rw [hstop]
            split
            · exact List.mem_append_right _ (List.mem_singleton.mpr rfl)
            · exact List.mem_singleton.mpr rfl
        | cons d read =>
            cases happend
            rw [if_pos (hall c List.mem_cons_self)]
            apply List.mem_append_left
            apply List.mem_map.mpr
            refine ⟨⟨read, groups, rest⟩, ?_, rfl⟩
            exact (ih read).mpr
              ⟨rfl, fun e he => hall e (List.mem_cons_of_mem c he), hgroups⟩

theorem mem_ways_text {s xs : List Char} {w : Way} :
    w ∈ ways (text s) xs <-> w.read ++ w.rest = xs ∧ Reads (text s) w.read w.groups := by
  unfold ways Reads
  constructor
  · intro h
    split at h
    · next hprefix =>
        cases List.mem_singleton.mp h
        rcases List.isPrefixOf_iff_prefix.mp hprefix with ⟨tail, rfl⟩
        exact ⟨by simp, rfl, rfl⟩
    · cases h
  · rintro ⟨rfl, hread, hgroups⟩
    rcases w with ⟨read, groups, rest⟩
    cases hread
    cases hgroups
    rw [if_pos (List.isPrefixOf_iff_prefix.mpr ⟨rest, rfl⟩)]
    simp

theorem mem_ways_one {p : Char -> Bool} {xs : List Char} {w : Way} :
    w ∈ ways (one p) xs <-> w.read ++ w.rest = xs ∧ Reads (one p) w.read w.groups := by
  cases xs with
  | nil =>
      constructor
      · intro h
        cases h
      · rintro ⟨happend, ⟨c, _, hread⟩, _⟩
        rw [hread] at happend
        cases happend
  | cons c rest =>
      unfold ways Reads
      constructor
      · intro h
        split at h
        · next hp =>
            cases List.mem_singleton.mp h
            exact ⟨rfl, ⟨c, hp, rfl⟩, rfl⟩
        · cases h
      · rintro ⟨happend, ⟨d, hp, hread⟩, hgroups⟩
        rcases w with ⟨read, groups, rest'⟩
        cases hread
        cases hgroups
        cases happend
        rw [if_pos hp]
        exact List.mem_singleton.mpr rfl

theorem mem_ways {r : Pattern} {xs : List Char} {w : Way} :
    w ∈ ways r xs <-> w.read ++ w.rest = xs ∧ Reads r w.read w.groups := by
  induction r generalizing xs w with
  | text s => exact mem_ways_text
  | one p => exact mem_ways_one
  | many p => exact mem_runs
  | group r ih =>
      unfold ways Reads
      constructor
      · intro h
        rcases List.mem_map.mp h with ⟨w', hw', rfl⟩
        rcases ih.mp hw' with ⟨happend, hreads⟩
        exact ⟨happend, w'.groups, rfl, hreads⟩
      · rintro ⟨happend, hs, hgroups, hreads⟩
        rcases w with ⟨read, groups, rest⟩
        change groups = read :: hs at hgroups
        subst hgroups
        apply List.mem_map.mpr
        exact ⟨⟨read, hs, rest⟩, ih.mpr ⟨happend, hreads⟩, rfl⟩
  | seq r s ihr ihs =>
      unfold ways Reads
      constructor
      · intro h
        rcases List.mem_flatMap.mp h with ⟨v, hv, hmap⟩
        rcases List.mem_map.mp hmap with ⟨v', hv', rfl⟩
        rcases ihr.mp hv with ⟨happend, hr⟩
        rcases ihs.mp hv' with ⟨happend', hs⟩
        refine ⟨?_, v.read, v'.read, v.groups, v'.groups, rfl, rfl, hr, hs⟩
        rw [List.append_assoc, happend', happend]
      · rintro ⟨happend, ys, zs, hs, ks, hread, hgroups, hr, hs'⟩
        rcases w with ⟨read, groups, rest⟩
        change read = ys ++ zs at hread
        change groups = hs ++ ks at hgroups
        subst hread hgroups
        change ys ++ zs ++ rest = xs at happend
        rw [List.append_assoc] at happend
        apply List.mem_flatMap.mpr
        refine ⟨⟨ys, hs, zs ++ rest⟩, ihr.mpr ⟨happend, hr⟩, ?_⟩
        apply List.mem_map.mpr
        exact ⟨⟨zs, ks, rest⟩, ihs.mpr ⟨rfl, hs'⟩, rfl⟩

theorem reads_plus {p : Char -> Bool} {xs : List Char} {gs : List (List Char)} :
    Reads (plus p) xs gs <-> xs ≠ [] ∧ (forall c, c ∈ xs -> p c = true) ∧ gs = [] := by
  unfold plus Reads
  constructor
  · rintro ⟨ys, zs, hs, ks, rfl, rfl, ⟨⟨c, hc, rfl⟩, rfl⟩, hall, rfl⟩
    refine ⟨List.cons_ne_nil c zs, ?_, rfl⟩
    intro d hd
    rcases List.mem_cons.mp hd with rfl | hd
    · exact hc
    · exact hall d hd
  · rintro ⟨hne, hall, rfl⟩
    rcases List.exists_cons_of_ne_nil hne with ⟨c, zs, rfl⟩
    exact ⟨[c], zs, [], [], rfl, rfl, ⟨⟨c, hall c List.mem_cons_self, rfl⟩, rfl⟩,
      fun d hd => hall d (List.mem_cons_of_mem c hd), rfl⟩

/-!
## Searches
-/

theorem findallFrom_of_length_le {r : Pattern} {n : Nat} {xs : List Char} (h : xs.length ≤ n) :
    findallFrom r n xs = [] := by
  induction xs generalizing n with
  | nil => rfl
  | cons c rest ih =>
      cases n with
      | zero => cases h
      | succ n => exact ih (Nat.le_of_succ_le_succ h)

theorem findall_of_reads {r : Pattern} {xs : List Char} {gs : List (List Char)} (hne : xs ≠ [])
    (hreads : Reads r xs gs)
    (honly : forall w : Way, w.read ++ w.rest = xs -> Reads r w.read w.groups ->
      w.read = xs ∧ w.groups = gs) :
    findall r xs = [gs] := by
  have hmem : (⟨xs, gs, []⟩ : Way) ∈ ways r xs := mem_ways.mpr ⟨List.append_nil xs, hreads⟩
  rcases List.exists_cons_of_ne_nil (List.ne_nil_of_mem hmem) with ⟨w, more, hways⟩
  rcases mem_ways.mp (hways ▸ List.mem_cons_self) with ⟨happend, hw⟩
  rcases honly w happend hw with ⟨hread, hgroups⟩
  rcases List.exists_cons_of_ne_nil hne with ⟨c, rest, rfl⟩
  unfold findall findallFrom
  rw [hways, List.head?_cons]
  simp only [hread, hgroups, List.length_cons, Nat.add_sub_cancel]
  rw [findallFrom_of_length_le (Nat.le_refl _)]

theorem findall_eq_nil {r : Pattern} {xs : List Char}
    (hnone : forall (before : List Char) (w : Way), before ++ (w.read ++ w.rest) = xs -> ¬ Reads r w.read w.groups) :
    findall r xs = [] := by
  unfold findall
  induction xs with
  | nil => rfl
  | cons c rest ih =>
      have hways : ways r (c :: rest) = [] := by
        apply List.eq_nil_iff_forall_not_mem.mpr
        intro w hw
        rcases mem_ways.mp hw with ⟨happend, hreads⟩
        exact hnone [] w happend hreads
      unfold findallFrom
      rw [hways, List.head?_nil]
      apply ih
      intro before w happend
      exact hnone (c :: before) w (congrArg (c :: ·) happend)

end Pattern
end Foundation
end Dmerge
