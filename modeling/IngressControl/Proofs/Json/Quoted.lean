import IngressControl.Json.Reader
import IngressControl.Json.Writer
/-!
Strings are read back as they were written.

Each character is written as one piece that the reader knows: itself, a short escape or, for the
other controls, a unit of its code.
-/

namespace IngressControl.Json

def pieceOf (char : Char) : Piece :=
  if char.toNat < 0x20 ∧ char ∉ ['\x08', '\x0c', '\n', '\r', '\t'] then .unit char.toNat
  else .char char

theorem digits?_control {code : Nat} (control : code < 0x20) :
    Numeral.digits? 16 ['0', '0', Text.hexDigit (code / 16), Text.hexDigit (code % 16)]
      = some code := by
  have all : ∀ code < 0x20, Numeral.digits? 16
      ['0', '0', Text.hexDigit (code / 16), Text.hexDigit (code % 16)] = some code := by decide
  exact all code control

theorem pieces?_escaped (char : Char) (rest : List Char) :
    pieces? (escaped char ++ rest)
      = (pieces? rest).map fun (pieces, after) => (pieceOf char :: pieces, after) := by
  rw [escaped.eq_def, Option.map_eq_bind]
  split
  -- The quote, the backslash and the five short escapes.
  iterate 7 exact rfl
  rename_i quote slash back feed line carriage tab
  have long : char ∉ ['\x08', '\x0c', '\n', '\r', '\t'] := by
    simpa using ⟨back, feed, line, carriage, tab⟩
  split
  · rename_i control
    have read : pieces? (['\\', 'u', '0', '0', Text.hexDigit (char.toNat / 16),
        Text.hexDigit (char.toNat % 16)] ++ rest) = do
          let unit ← Numeral.digits? 16
            ['0', '0', Text.hexDigit (char.toNat / 16), Text.hexDigit (char.toNat % 16)]
          let (pieces, after) ← pieces? rest
          return (.unit unit :: pieces, after) := rfl
    rw [read, digits?_control control, pieceOf, if_pos ⟨control, long⟩]
    rfl
  · rename_i plain
    rw [List.singleton_append, pieces?, if_neg (by simpa [plain] using slash), pieceOf,
      if_neg (fun both => plain both.1)]
    · rfl
    · exact quote
    · exact fun _ _ _ _ _ mark _ => slash mark
    · exact fun _ _ mark _ => slash mark

theorem joined?_unit {unit : Nat} (control : unit < 0x20) (pieces : List Piece) :
    joined? (.unit unit :: pieces) = (joined? pieces).map (Char.ofNat unit :: ·) := by
  have high : isHigh unit = false := by simpa [isHigh] using fun above => by omega
  have low : isLow unit = false := by simpa [isLow] using fun above => by omega
  -- The reader looks at the next piece, which may be a unit as well.
  rcases pieces with _ | ⟨_ | _, pieces⟩ <;> simp [joined?, high, low]

theorem joined?_pieceOf (char : Char) (pieces : List Piece) :
    joined? (pieceOf char :: pieces) = (joined? pieces).map (char :: ·) := by
  rw [pieceOf]
  split
  · rename_i control
    rw [joined?_unit control.1, Char.ofNat_toNat]
  · rw [joined?]

/-- A written string is read back, whatever follows its closing quote. -/
theorem string?_written (text : String) (rest : List Char) :
    string? (text.toList.flatMap escaped ++ '"' :: rest) = some (some text, rest) := by
  have pieces (chars : List Char) :
      pieces? (chars.flatMap escaped ++ '"' :: rest) = some (chars.map pieceOf, rest) := by
    induction chars with
    | nil => rfl
    | cons char chars ih =>
        rw [List.flatMap_cons, List.append_assoc, pieces?_escaped, ih]
        rfl
  have joined (chars : List Char) : joined? (chars.map pieceOf) = some chars := by
    induction chars with
    | nil => rfl
    | cons char chars ih =>
        rw [List.map_cons, joined?_pieceOf, ih]
        rfl
  rw [string?, pieces]
  simp [joined]

theorem quoted_inj {first second : String} {rest rest' : List Char}
    (same : quoted first ++ rest = quoted second ++ rest') : first = second ∧ rest = rest' := by
  have read (text : String) (rest : List Char) :
      string? (quoted text ++ rest).tail = some (some text, rest) := by
    simpa [quoted] using string?_written text rest
  have both := read first rest
  rw [same, read second rest'] at both
  simpa [eq_comm] using both

end IngressControl.Json
