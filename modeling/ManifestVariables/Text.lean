/-!
# Pieces of text

Splitting a list of characters at a separator, and the part up to its last
occurrence. Nothing is lost: joining the pieces with the separator, or the two
parts of a split, gives the list back.
-/

namespace ManifestVariables.Text

/-- The pieces between the separators; there is always one piece. -/
def pieces (separator : Char) : List Char → List (List Char)
  | [] => [[]]
  | c :: rest =>
    if c = separator then [] :: pieces separator rest
    else match pieces separator rest with
      | piece :: others => (c :: piece) :: others
      | [] => [[c]]

/-- The pieces with one separator between neighbours. -/
def join (separator : Char) : List (List Char) → List Char
  | [] => []
  | [piece] => piece
  | piece :: rest => piece ++ separator :: join separator rest

/-- The part up to and including the last separator, and what follows it. -/
def splitLast (separator : Char) (text : List Char) : List Char × List Char :=
  let reversed := text.reverse
  ((reversed.dropWhile (· ≠ separator)).reverse, (reversed.takeWhile (· ≠ separator)).reverse)

/-- Whether two neighbours are both the given character. -/
def hasDouble (c : Char) : List Char → Bool
  | a :: b :: rest => (a = c && b = c) || hasDouble c (b :: rest)
  | _ => false

theorem pieces_ne_nil (separator : Char) (text : List Char) : pieces separator text ≠ [] := by
  cases text with
  | nil => simp [pieces]
  | cons c rest =>
    simp only [pieces]
    split
    · simp
    · split <;> simp

theorem join_pieces (separator : Char) (text : List Char) :
    join separator (pieces separator text) = text := by
  induction text with
  | nil => rfl
  | cons c rest ih =>
    have some_piece := pieces_ne_nil separator rest
    revert ih some_piece
    simp only [pieces]
    cases pieces separator rest with
    | nil => simp
    | cons piece others =>
      intro ih _
      split
      · next h => subst h; simp [join, ih]
      · cases others with
        | nil => simpa [join] using ih
        | cons other more => simpa [join] using ih

theorem splitLast_append (separator : Char) (text : List Char) :
    (splitLast separator text).1 ++ (splitLast separator text).2 = text := by
  simp only [splitLast, ← List.reverse_append, List.takeWhile_append_dropWhile,
    List.reverse_reverse]

end ManifestVariables.Text
