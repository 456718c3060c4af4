import ManifestVariables.Http.Url
import ManifestVariables.Proofs.ConfigServer.Lookup
import ManifestVariables.Proofs.Http.Percent
import ManifestVariables.Proofs.Name.Grammar

/-!
# Appending segments to a path

The path of a web URL is made of segments without slashes. What follows the path of a URL to which
segments are appended is written behind its stem, the path without a slash at its end
(`Url.extend?_text`). A segment is appended as one segment unless it means the one that it stands
in or the one above, and no escaped segment does but the dots themselves
(`Url.not_isHere_encode`).
-/

namespace ManifestVariables.Url

variable {segment : List Char} {path segments : List (List Char)} {url : Url}

/-! ### Dot segments -/

/-- A character is its lower form, or the capital letter of it. -/
theorem eq_or_of_toLower_eq {c lower : Char} (same : c.toLower = lower) :
    c = lower ∨ 97 ≤ lower.toNat ∧ lower.toNat = c.toNat + 32 := by
  unfold Char.toLower at same
  split at same
  next upper =>
    have low : 65 ≤ c.toNat := UInt32.le_iff_toNat_le.mp upper.1
    have high : c.toNat ≤ 90 := UInt32.le_iff_toNat_le.mp upper.2
    have value : lower.toNat = (c.toNat + 32) % 2 ^ 32 := by
      rw [← same]
      rfl
    exact .inr (by omega)
  · exact .inl same

theorem eq_of_toLower_eq {c lower : Char} (same : c.toLower = lower) (other : lower.toNat < 97) :
    c = lower := by
  rcases eq_or_of_toLower_eq same with same | shifted
  · exact same
  · omega

/-- The spellings of a dot, in lower case. -/
def dots : List (List Char) := [['.'], ['%', '2', 'e']]

/-- However a dot is spelled, it is read as a dot. -/
theorem decode_append_of_dot (dot : segment.map Char.toLower ∈ dots) (rest : List Char) :
    Percent.decode (segment ++ rest) = 0x2e :: Percent.decode rest := by
  simp only [dots, List.mem_cons, List.not_mem_nil, or_false, List.map_eq_cons_iff,
    List.map_eq_nil_iff] at dot
  rcases dot with ⟨c, _, rfl, same, rfl⟩ | ⟨a, _, rfl, first, b, _, rfl, second, c, _, rfl, third, rfl⟩
  · obtain rfl := eq_of_toLower_eq same (by decide)
    rw [List.singleton_append, Percent.decode_cons (by decide)]
    rfl
  · obtain rfl := eq_of_toLower_eq first (by decide)
    obtain rfl := eq_of_toLower_eq second (by decide)
    have digit : Percent.digit? c = some 14 := by
      rcases eq_or_of_toLower_eq third with rfl | ⟨_, shifted⟩
      · rfl
      · have capital : c = 'E' := Char.toNat_inj.mp (by
          have value : 'e'.toNat = 101 := rfl
          have other : 'E'.toNat = 69 := rfl
          omega)
        rw [capital]
        rfl
    have two : Percent.digit? '2' = some 2 := rfl
    simp [Percent.decode, digit, two]

/-- A segment that means the one it stands in stands for a dot. -/
theorem decode_of_isHere (here : isHere segment = true) : Percent.decode segment = [0x2e] := by
  have dot : segment.map Char.toLower ∈ dots := by
    simpa [isHere, dots, ← String.toList_inj] using here
  simpa [Percent.decode] using decode_append_of_dot dot []

/-- A segment that means the one above stands for two dots. -/
theorem decode_of_isAbove (above : isAbove segment = true) :
    Percent.decode segment = [0x2e, 0x2e] := by
  have spelled : ∃ one ∈ dots, ∃ other ∈ dots, segment.map Char.toLower = one ++ other := by
    simpa [isAbove, dots, ← String.toList_inj, or_assoc] using above
  obtain ⟨one, dot, other, dotToo, whole⟩ := spelled
  obtain ⟨front, rear, rfl, rfl, rfl⟩ := List.map_eq_append_iff.mp whole
  rw [decode_append_of_dot dot, ← List.append_nil rear, decode_append_of_dot dotToo]
  rfl

/-! ### The stem of a path -/

/-- The text of a path without a slash at its end; none is left of a path of slashes alone. -/
def stem (path : UrlPath) : List Char :=
  let text := pathText path
  let kept := if text.getLast? = some '/' then text.dropLast else text
  if kept = ['/'] then [] else kept

/-- The segments that are kept when others are appended. -/
def trunk (path : List (List Char)) : List (List Char) :=
  let kept := popEmpty path
  if kept = [[]] then [] else kept

theorem pathText_append (path segments : List (List Char)) :
    pathText (.segments (path ++ segments)) =
      pathText (.segments path) ++ pathText (.segments segments) :=
  List.flatMap_append

theorem pathText_eq_slash_iff : pathText (.segments path) = ['/'] ↔ path = [[]] := by
  cases path with
  | nil => simp [pathText]
  | cons segment rest => cases rest <;> simp [pathText]

/-- What is kept is written as the stem. -/
theorem pathText_trunk (free : ∀ segment ∈ path, '/' ∉ segment) :
    pathText (.segments (trunk path)) = stem (.segments path) := by
  rcases List.eq_nil_or_concat path with rfl | ⟨front, last, rfl⟩
  · rfl
  rw [List.concat_eq_append] at *
  have whole : pathText (.segments (front ++ [last])) =
      pathText (.segments front) ++ '/' :: last := by
    rw [pathText_append]
    simp [pathText]
  by_cases empty : last = []
  · subst empty
    have kept : stem (.segments (front ++ [[]])) =
        if pathText (.segments front) = ['/'] then [] else pathText (.segments front) := by
      simp [stem, whole]
    rw [kept]
    by_cases root : front = []
    · subst root
      rfl
    · have long : 0 < front.length := List.length_pos_iff.mpr root
      simp only [trunk, popEmpty, pathText_eq_slash_iff]
      simp [long]
      split <;> rfl
  · have inside : '/' ∉ last := free last (by simp)
    have several : front ++ [last] ≠ [[]] := fun same =>
      empty (List.mem_singleton.mp (same ▸ List.mem_append_right front (List.mem_singleton_self _)))
    have ending : (pathText (.segments (front ++ [last]))).getLast? ≠ some '/' := by
      rw [whole, List.getLast?_append_of_ne_nil _ (List.cons_ne_nil _ _),
        List.getLast?_cons_of_ne_nil empty]
      exact fun slash => inside (List.mem_of_getLast? slash)
    have kept : stem (.segments (front ++ [last])) = pathText (.segments (front ++ [last])) := by
      rw [stem, if_neg ending, if_neg (mt pathText_eq_slash_iff.mp several)]
    rw [kept]
    simp [trunk, popEmpty, empty, several]

/-! ### The segments of a web URL -/

theorem forall_mem_place {good : List Char → Prop} (empty : good [])
    (before : ∀ segment ∈ path, good segment) (here : good segment) :
    ∀ other ∈ place path segment, good other := by
  unfold place
  split
  · exact List.forall_mem_append.mpr
      ⟨fun other member => before other (List.mem_of_mem_dropLast member), by simpa using empty⟩
  · split
    · exact List.forall_mem_append.mpr ⟨before, by simpa using empty⟩
    · exact List.forall_mem_append.mpr ⟨before, by simpa using here⟩

/-- Resolving dot segments gives segments that were there, and empty ones. -/
theorem forall_mem_resolve {good : List Char → Prop} (empty : good [])
    (before : ∀ segment ∈ path, good segment) (later : ∀ segment ∈ segments, good segment) :
    ∀ segment ∈ resolve path segments, good segment := by
  induction segments generalizing path with
  | nil => exact before
  | cons first rest ih =>
    obtain ⟨here, later⟩ := List.forall_mem_cons.mp later
    cases rest with
    | nil => exact forall_mem_place empty before here
    | cons other more =>
      rw [resolve]
      · split
        · exact ih (fun segment member => before segment (List.mem_of_mem_dropLast member)) later
        · split
          · exact ih before later
          · exact ih (List.forall_mem_append.mpr ⟨before, by simpa using here⟩) later
      · exact List.cons_ne_nil _ _

/-- The path of a URL is made of segments without slashes. -/
def Segmented (url : Url) : Prop :=
  ∃ path, url.path = .segments path ∧ ∀ segment ∈ path, '/' ∉ segment

theorem exists_readPath (special : Bool) (text : List Char) :
    ∃ path, readPath special text = .segments path ∧ ∀ segment ∈ path, '/' ∉ segment := by
  have free (text : List Char) : ∀ segment ∈
      resolve [] ((Text.pieces '/' text).map (Percent.encode Percent.inPath)), '/' ∉ segment := by
    refine forall_mem_resolve List.not_mem_nil (by simp) fun segment member slash => ?_
    obtain ⟨piece, among, rfl⟩ := List.mem_map.mp member
    rcases Percent.mem_encode slash with same | digit | ⟨_, inside⟩
    · exact absurd same (by decide)
    · exact absurd digit (by decide)
    · exact Text.not_mem_of_mem_pieces among inside
  unfold readPath
  dsimp only
  split
  · exact ⟨_, rfl, by split <;> simp⟩
  · exact ⟨_, rfl, free _⟩
  · exact ⟨_, rfl, free _⟩

theorem segmented_of_readAuthority {scheme : String} {text : List Char}
    (read : readAuthority scheme text = .ok url) : Segmented url := by
  simp only [readAuthority] at read
  split at read
  · cases read
  · split at read
    all_goals
      obtain ⟨host, _, read⟩ := Client.bind_eq_ok_iff.mp read
      obtain ⟨port, _, read⟩ := Client.bind_eq_ok_iff.mp read
      cases read
      exact exists_readPath _ _

theorem segmented_of_readFile {text : List Char} (read : readFile text = .ok url) :
    Segmented url := by
  simp only [readFile] at read
  split at read
  · split at read
    all_goals
      obtain ⟨host, _, read⟩ := Client.bind_eq_ok_iff.mp read
      cases read
      exact exists_readPath _ _
  · cases read
    exact exists_readPath _ _

/-- A URL of the web has a path of segments. -/
theorem segmented_of_parse {text : List Char} (read : parse text = .ok url)
    (web : isSpecial url.scheme = true) : Segmented url := by
  unfold parse at read
  split at read
  · cases read
  next scheme rest found =>
    split at read
    · exact segmented_of_readFile read
    · split at read
      · exact segmented_of_readAuthority read
      next other =>
        split at read
        · exact segmented_of_readAuthority read
        · simp only [Except.ok.injEq] at read
          subst read
          exact absurd web other

/-! ### Appending -/

/-- A text that is appended as it is: it is not dots alone and has no tabs and line breaks. -/
structure IsOpaque (segment : List Char) : Prop where
  here : segment ≠ ['.']
  above : segment ≠ ['.', '.']
  unbroken : ∀ c ∈ segment, isLineBreak c = false

/-- An escaped text means no other segment than itself, if it is not dots alone. -/
theorem place_encode (own : IsOpaque segment) :
    place path (Percent.encode Percent.inSegment segment) =
      path ++ [Percent.encode Percent.inSegment segment] := by
  have here : ¬ isHere (Percent.encode Percent.inSegment segment) = true := by
    intro here
    have dot : Percent.decode (Percent.encode Percent.inSegment ['.']) = [0x2e] := by decide
    exact own.here (Percent.eq_of_decode_encode_eq rfl ((decode_of_isHere here).trans dot.symm))
  have above : ¬ isAbove (Percent.encode Percent.inSegment segment) = true := by
    intro above
    have dots : Percent.decode (Percent.encode Percent.inSegment ['.', '.']) = [0x2e, 0x2e] := by
      decide
    exact own.above (Percent.eq_of_decode_encode_eq rfl ((decode_of_isAbove above).trans dots.symm))
  rw [place, if_neg above, if_neg here]

/-- An opaque segment is appended as one segment. -/
theorem append_of_isOpaque (own : IsOpaque segment) :
    append path segment =
      (if path = [[]] then [] else path) ++ [Percent.encode Percent.inSegment segment] := by
  have whole : segment.filter (fun c => !isLineBreak c) = segment :=
    List.filter_eq_self.mpr fun c member => by simp [own.unbroken c member]
  rw [append, if_neg (by simp [own.here, own.above])]
  simp only [whole, place_encode own]

/-- Behind a path that is more than one empty segment, opaque segments are appended in order. -/
theorem foldl_append (nonempty : path ≠ []) (more : path ≠ [[]])
    (own : ∀ segment ∈ segments, IsOpaque segment) :
    segments.foldl append path = path ++ segments.map (Percent.encode Percent.inSegment) := by
  induction segments generalizing path with
  | nil => simp
  | cons first rest ih =>
    obtain ⟨here, later⟩ := List.forall_mem_cons.mp own
    have longer (last : List Char) : path ++ [last] ≠ [[]] := by
      cases path with
      | nil => exact absurd rfl nonempty
      | cons => simp
    rw [List.foldl_cons, append_of_isOpaque here, if_neg more, ih (by simp) (longer _) later]
    simp

/-- Opaque segments, the first of which is not empty, are written behind the stem of a path, with
a slash before each. -/
theorem extend?_text {first : List Char} (segmented : Segmented url) (filled : first ≠ [])
    (own : ∀ segment ∈ first :: segments, IsOpaque segment) :
    ∃ extended, url.extend? (first :: segments) = some extended ∧
      extended = { url with path := extended.path } ∧
      pathText extended.path = stem url.path ++
        (first :: segments).flatMap fun segment =>
          '/' :: Percent.encode Percent.inSegment segment := by
  obtain ⟨path, same, free⟩ := segmented
  obtain ⟨here, later⟩ := List.forall_mem_cons.mp own
  refine ⟨_, by rw [extend?, same], rfl, ?_⟩
  have start : append (popEmpty path) first =
      trunk path ++ [Percent.encode Percent.inSegment first] := append_of_isOpaque here
  have nonempty : trunk path ++ [Percent.encode Percent.inSegment first] ≠ [] := by simp
  have more : trunk path ++ [Percent.encode Percent.inSegment first] ≠ [[]] := by
    intro same
    have last := congrArg List.getLast? same
    simp [Percent.encode_eq_nil_iff, Percent.inSegment, filled] at last
  rw [List.foldl_cons, start, foldl_append nonempty more later, List.append_assoc, pathText_append,
    pathText_trunk free, same]
  simp [pathText, List.flatMap_map]

end ManifestVariables.Url
