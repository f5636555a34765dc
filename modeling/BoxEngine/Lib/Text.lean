/-!
# Text

The string operations of the source language that its keys and labels go through.
-/

namespace Js

def isSpace (c : Char) : Bool :=
  let n := c.toNat
  (9 ≤ n && n ≤ 13) || n = 0x20 || n = 0xA0 || n = 0x1680 || (0x2000 ≤ n && n ≤ 0x200A) || n = 0x2028 ||
    n = 0x2029 || n = 0x202F || n = 0x205F || n = 0x3000 || n = 0xFEFF

def trim (s : String) : String :=
  String.ofList ((s.toList.dropWhile isSpace).reverse.dropWhile isSpace).reverse

theorem trim_of_forall {s : String} (h : ∀ c ∈ s.toList, isSpace c = false) : trim s = s := by
  have hdrop : ∀ l : List Char, (∀ c ∈ l, isSpace c = false) → l.dropWhile isSpace = l := by
    intro l hl
    cases l with
    | nil => rfl
    | cons c l => simp [List.dropWhile, hl c (List.mem_cons_self ..)]
  unfold trim
  rw [hdrop _ h, hdrop _ (by simpa using h), List.reverse_reverse, String.ofList_toList]

def trimKey (key : Option String) : String := trim (key.getD "")

def startsWithFold : List Char → List Char → Bool
  | [], _ => true
  | _ :: _, [] => false
  | p :: pattern, c :: text => p.toLower = c.toLower && startsWithFold pattern text

def containsFold (pattern : List Char) : List Char → Bool
  | [] => pattern.isEmpty
  | c :: text => startsWithFold pattern (c :: text) || containsFold pattern text

def matchesAny (patterns : List String) (text : String) : Bool :=
  patterns.any fun pattern => containsFold pattern.toList text.toList

/-- Every occurrence replaced, from the left; the number counts the characters still to drop. -/
def replaceFold (pattern replacement : List Char) : Nat → List Char → List Char
  | _, [] => []
  | skip + 1, _ :: text => replaceFold pattern replacement skip text
  | 0, c :: text =>
    if startsWithFold pattern (c :: text) then
      replacement ++ replaceFold pattern replacement (pattern.length - 1) text
    else c :: replaceFold pattern replacement 0 text

def replaceAllFold (pattern replacement text : String) : String :=
  String.ofList (replaceFold pattern.toList replacement.toList 0 text.toList)

end Js
