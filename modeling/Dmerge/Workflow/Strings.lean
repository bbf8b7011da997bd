import Mathlib.Data.List.TakeWhile
import Mathlib.Data.List.Basic

/-!
# Strings of the scripts

A string is a list of characters.
-/

namespace Dmerge
namespace Workflow

/-- `str.isspace` of one character. -/
def isSpace (c : Char) : Bool :=
  let n := c.toNat
  (9 ≤ n && n ≤ 13) || (28 ≤ n && n ≤ 32) || n == 133 || n == 160 || n == 5760 ||
    (8192 ≤ n && n ≤ 8202) || n == 8232 || n == 8233 || n == 8239 || n == 8287 || n == 12288

/-- `str.strip` -/
def strip (s : List Char) : List Char :=
  ((s.dropWhile isSpace).reverse.dropWhile isSpace).reverse

theorem strip_eq_self {s : List Char} (hhead : forall c, s.head? = some c -> isSpace c = false)
    (hlast : forall c, s.getLast? = some c -> isSpace c = false) : strip s = s := by
  have hkeep : forall r : List Char, (forall c, r.head? = some c -> isSpace c = false) ->
      r.dropWhile isSpace = r := by
    intro r hr
    apply List.dropWhile_eq_self_iff.mpr
    intro hl
    rw [Bool.not_eq_true]
    apply hr
    rw [List.head?_eq_getElem?, List.getElem?_eq_getElem hl]
  have hback : s.reverse.dropWhile isSpace = s.reverse := by
    apply hkeep
    intro c hc
    rw [List.head?_reverse] at hc
    exact hlast c hc
  unfold strip
  rw [hkeep s hhead, hback, List.reverse_reverse]

end Workflow
end Dmerge
