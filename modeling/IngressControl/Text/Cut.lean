/-!
Taking texts apart: at the first mark, at every mark, at a known start or end.
-/

namespace IngressControl.Text

def withoutStart? : List Char → List Char → Option (List Char)
  | [], chars => some chars
  | _ :: _, [] => none
  | first :: start, char :: chars => if first = char then withoutStart? start chars else none

def withoutEnd? (ending chars : List Char) : Option (List Char) :=
  (withoutStart? ending.reverse chars.reverse).map List.reverse

def cutAt? (mark : Char) : List Char → Option (List Char × List Char)
  | [] => none
  | char :: chars =>
      if char = mark then some ([], chars)
      else (cutAt? mark chars).map fun (before, after) => (char :: before, after)

/-- The pieces of `chars` between marks, one more than there are marks. -/
def pieces (mark : Char) : List Char → List (List Char)
  | [] => [[]]
  | char :: chars =>
      if char = mark then [] :: pieces mark chars
      else
        match pieces mark chars with
        | [] => [[char]]
        | piece :: rest => (char :: piece) :: rest

def afterStart? (start text : String) : Option String :=
  (withoutStart? start.toList text.toList).map String.ofList

def startsWith (start text : String) : Bool := (withoutStart? start.toList text.toList).isSome

def endsWith (ending text : String) : Bool := (withoutEnd? ending.toList text.toList).isSome

def splitOnce? (mark : Char) (text : String) : Option (String × String) :=
  (cutAt? mark text.toList).map fun (before, after) => (String.ofList before, String.ofList after)

def splitAll (mark : Char) (text : String) : List String :=
  (pieces mark text.toList).map String.ofList

def lowered (text : String) : String := String.ofList (text.toList.map Char.toLower)

def sameLetters (first second : String) : Bool := lowered first = lowered second

theorem withoutStart?_eq_some_iff {start chars rest : List Char} :
    withoutStart? start chars = some rest ↔ chars = start ++ rest := by
  induction start generalizing chars with
  | nil => simp [withoutStart?]
  | cons first start ih =>
      cases chars with
      | nil => simp [withoutStart?]
      | cons char chars =>
          by_cases same : first = char
          · simp [withoutStart?, same, ih]
          · simp [withoutStart?, same, Ne.symm same]

theorem afterStart?_eq_some_iff {start text rest : String} :
    afterStart? start text = some rest ↔ text = start ++ rest := by
  simp only [afterStart?, Option.map_eq_some_iff, withoutStart?_eq_some_iff]
  constructor
  · rintro ⟨chars, whole, rfl⟩
    rw [← String.toList_inj, String.toList_append, String.toList_ofList, whole]
  · rintro rfl
    exact ⟨rest.toList, String.toList_append, String.ofList_toList⟩

theorem startsWith_append (start rest : String) : startsWith start (start ++ rest) = true := by
  rw [startsWith, Option.isSome_iff_exists]
  exact ⟨rest.toList, withoutStart?_eq_some_iff.mpr String.toList_append⟩

end IngressControl.Text
