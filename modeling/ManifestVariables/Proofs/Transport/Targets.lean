import ManifestVariables.Proofs.Http.Paths
import ManifestVariables.Proofs.Name.Spelling
import ManifestVariables.Transport.Endpoint

/-!
# What requests ask for

A variable is asked for by its name behind the path of the server, or by its id in one segment
that is escaped. A valid name has no characters that are escaped and no segments that mean
others, so its target is the name itself; and an escaped id stands for this id alone. So the
target of a request tells what is asked for (`Endpoint.targets_identify`).
-/

namespace ManifestVariables

namespace Name

variable {name : String} {text : List Char}

/-- The name without the slash in front of it, if there is one. -/
def unrooted (name : String) : List Char :=
  match name.toList with
  | '/' :: rest => rest
  | text => text

/-- Without its slash in front, a valid name is a valid name that is relative. -/
theorem Valid.unrooted (valid : Valid name.toList) :
    Valid (unrooted name) ∧ (Name.unrooted name).head? ≠ some '/' := by
  unfold Name.unrooted
  split
  next rest same =>
    rw [same] at valid
    exact (valid_append_iff (List.forall_mem_nil _)).mp valid
  next different =>
    exact ⟨valid, fun first =>
      let ⟨rest, same⟩ := List.head?_eq_some_iff.mp first
      different rest same⟩

/-- No character of a segment of a name is escaped. -/
theorem inSegment_eq_false {c : Char} (valid : isNameChar c = true) (inner : c ≠ '/') :
    Percent.inSegment c = false ∧ Url.isLineBreak c = false := by
  have small : c.toNat < 128 := by
    have below (high : Char) (bound : c ≤ high) : c.toNat ≤ high.toNat :=
      UInt32.le_iff_toNat_le.mp bound
    rcases isNameChar_iff.mp valid with word | rfl | rfl
    · rcases isWordChar_iff.mp word with ⟨_, high⟩ | ⟨_, high⟩ | ⟨_, high⟩ | rfl | rfl
      · exact Nat.lt_of_le_of_lt (below 'Z' high) (by decide)
      · exact Nat.lt_of_le_of_lt (below 'z' high) (by decide)
      · exact Nat.lt_of_le_of_lt (below '9' high) (by decide)
      · decide
      · decide
    · decide
    · decide
  have all : ∀ code : Fin 128, isNameChar (Char.ofNat code) = true → Char.ofNat code ≠ '/' →
      Percent.inSegment (Char.ofNat code) = false ∧ Url.isLineBreak (Char.ofNat code) = false := by
    decide
  have own := all ⟨c.toNat, small⟩
  rw [Char.ofNat_toNat] at own
  exact own valid inner

/-- The segments of a valid name are not empty, mean no other segments and are not escaped. -/
theorem Valid.segments (valid : Valid name.toList) :
    ∀ segment ∈ Text.pieces '/' (Name.unrooted name), segment ≠ [] ∧ Url.IsOpaque segment ∧
      Percent.encode Percent.inSegment segment = segment := by
  intro segment member
  obtain ⟨valid, relative⟩ := valid.unrooted
  have filled := (Text.pieces_nonempty_iff '/' _).mpr
    ⟨valid.nonempty, relative, valid.closed, valid.single⟩
  have inner := valid.pieces segment member
  have plain : ∀ c ∈ segment, Percent.inSegment c = false ∧ Url.isLineBreak c = false := by
    intro c inside
    have different : c ≠ '/' := fun same => Text.not_mem_of_mem_pieces member (same ▸ inside)
    exact inSegment_eq_false (valid.chars c (Text.subset_of_mem_pieces member inside)) different
  refine ⟨filled segment member, ⟨?_, ?_, fun c inside => (plain c inside).2⟩,
    Percent.encode_eq_self fun c inside => (plain c inside).1⟩
  · rintro rfl
    exact absurd inner (by decide)
  · rintro rfl
    exact absurd inner (by decide)

end Name

namespace Endpoint

variable {endpoint : Endpoint} {base : String} {url : Url} {name : String}

theorem ofUrl_append_slashes (base : String) (slashes : Nat) :
    ofUrl (base ++ String.ofList (List.replicate slashes '/')) = ofUrl base := by
  have dropped : (List.replicate slashes '/' ++ base.toList.reverse).dropWhile (· = '/') =
      base.toList.reverse.dropWhile (· = '/') :=
    List.dropWhile_append_of_pos fun c member => by simp [List.eq_of_mem_replicate member]
  simp only [ofUrl, String.toList_append, String.toList_ofList, List.reverse_append,
    List.reverse_replicate, dropped]

/-- A valid name is asked for by the pieces between its slashes. -/
theorem nameSegments_eq (valid : Name.Valid name.toList) :
    nameSegments name = Text.pieces '/' (Name.unrooted name) := by
  have kept : (Text.pieces '/' (Name.unrooted name)).filter (fun segment => !segment.isEmpty) =
      Text.pieces '/' (Name.unrooted name) :=
    List.filter_eq_self.mpr fun segment member => by simpa using (valid.segments segment member).1
  rw [← kept]
  unfold nameSegments Name.unrooted
  split
  next rest same => simp [same, Text.pieces]
  · rfl

/-- A call asks for a target: every request that it becomes is for this target, and it becomes one
wherever a request to the server can be prepared. -/
structure Asks (endpoint : Endpoint) (url : Url) (call : Call) (target : List Char) : Prop where
  target : ∀ bearer request, endpoint.request call bearer = .ok request →
    request.method = .get ∧ request.url.target.toList = target
  prepared : ∀ bearer, Http.isRequestable url = true →
    (∀ token ∈ bearer, Http.fitsHeader (Http.bearer token) = true) →
    ∃ request, endpoint.request call bearer = .ok request

theorem Asks.target_eq_iff {call other : Call} {target target' : List Char}
    (asks : endpoint.Asks url call target) (asksOther : endpoint.Asks url other target')
    {bearer bearer' : Option String} {request request' : Http.Request}
    (made : endpoint.request call bearer = .ok request)
    (madeOther : endpoint.request other bearer' = .ok request') :
    request.url.target = request'.url.target ↔ target = target' := by
  rw [← (asks.target bearer request made).2, ← (asksOther.target bearer' request' madeOther).2,
    String.toList_inj]

theorem target_withoutUser (url : Url) : (Http.withoutUser url).target = url.target := by
  unfold Http.withoutUser
  split <;> rfl

/-- A call that asks for segments behind the base asks for the stem of its path with the segments
behind it. -/
theorem asks_of_segments {call : Call} {first : List Char} {segments : List (List Char)}
    (shape : ∀ bearer : Option String, endpoint.request call bearer =
      match endpoint.url (first :: segments) with
      | .ok url => Http.prepare .get url (bearer.map Http.bearer).toList none none none
      | .error failure => .error failure)
    (read : Url.parse endpoint.base.toList = .ok url) (web : Url.isSpecial url.scheme = true)
    (plain : url.query = none) (filled : first ≠ [])
    (own : ∀ segment ∈ first :: segments, Url.IsOpaque segment) :
    endpoint.Asks url call (Url.stem url.path ++
      (first :: segments).flatMap fun segment =>
        '/' :: Percent.encode Percent.inSegment segment) := by
  obtain ⟨extended, found, same, text⟩ :=
    Url.extend?_text (Url.segmented_of_parse read web) filled own
  have target : extended.target.toList = Url.pathText extended.path := by
    rw [same, Url.target]
    simp [plain]
  have reached : endpoint.url (first :: segments) = .ok extended := by
    simp only [Endpoint.url, read, found]
  rw [← text, ← target]
  constructor
  · intro bearer request made
    rw [shape, reached] at made
    simp only [Http.prepare] at made
    split at made
    · cases made
    · split at made
      · cases made
      · cases made
        exact ⟨rfl, by rw [target_withoutUser]⟩
  · intro bearer requestable fits
    have header : (bearer.map Http.bearer).toList.all Http.fitsHeader = true := by
      cases bearer with
      | none => rfl
      | some token => simpa using fits token rfl
    have reachable : Http.isRequestable extended = true := by
      rw [same]
      exact requestable
    rw [shape, reached]
    simp [Http.prepare, header, reachable]

/-- A valid name is asked for as it is, without a slash in front. -/
theorem asks_get (read : Url.parse endpoint.base.toList = .ok url)
    (web : Url.isSpecial url.scheme = true) (plain : url.query = none)
    (valid : Name.Valid name.toList) :
    endpoint.Asks url (.get name) (Url.stem url.path ++ '/' :: Name.unrooted name) := by
  obtain ⟨first, rest, pieces⟩ :=
    List.exists_cons_of_ne_nil (Text.pieces_ne_nil '/' (Name.unrooted name))
  have segments := valid.segments
  have text : ((first :: rest).flatMap fun segment =>
      '/' :: Percent.encode Percent.inSegment segment) = '/' :: Name.unrooted name := by
    have unescaped : ((first :: rest).flatMap fun segment =>
        '/' :: Percent.encode Percent.inSegment segment) =
          (first :: rest).flatMap ('/' :: ·) :=
      List.flatMap_congr fun segment member => by rw [(segments segment (pieces ▸ member)).2.2]
    rw [unescaped, List.flatMap_cons, List.cons_append, ← Text.join_cons, ← pieces,
      Text.join_pieces]
  rw [← text]
  refine asks_of_segments (fun bearer => ?_) read web plain
    (segments first (pieces ▸ List.mem_cons_self)).1
    fun segment member => (segments segment (pieces ▸ member)).2.1
  rw [← pieces, ← nameSegments_eq valid]
  rfl

/-- An id is asked for in one escaped segment. -/
theorem asks_getById {id : String} (read : Url.parse endpoint.base.toList = .ok url)
    (web : Url.isSpecial url.scheme = true) (plain : url.query = none)
    (own : Url.IsOpaque id.toList) :
    endpoint.Asks url (.getById id)
      (Url.stem url.path ++ "/id/".toList ++ Percent.encode Percent.inSegment id.toList) := by
  have text : ([['i', 'd'], id.toList].flatMap fun segment =>
      '/' :: Percent.encode Percent.inSegment segment) =
        "/id/".toList ++ Percent.encode Percent.inSegment id.toList := by
    have prefixed : Percent.encode Percent.inSegment ['i', 'd'] = ['i', 'd'] := by decide
    simp [prefixed]
  have word : Url.IsOpaque ['i', 'd'] := ⟨by decide, by decide, by simp [Url.isLineBreak]⟩
  rw [List.append_assoc, ← text]
  exact asks_of_segments (fun bearer => rfl) read web plain (by simp)
    (List.forall_mem_cons.mpr ⟨word, List.forall_mem_singleton.mpr own⟩)

/-- The target of a request tells what is asked for. Slashes at the end of the base make no
difference. Behind the stem of its path, a valid name is asked for by the name itself, without a
slash in front and with no character escaped; and an id that is not dots alone and has no tabs
and line breaks is asked for by one segment that stands for this id. -/
theorem targets_identify (read : Url.parse (ofUrl base).base.toList = .ok url)
    (web : url.scheme = "http" ∨ url.scheme = "https") (plain : url.query = none) :
    (∀ slashes, ofUrl (base ++ String.ofList (List.replicate slashes '/')) = ofUrl base) ∧
    (∀ name, Name.validate name = .ok () →
      (ofUrl base).Asks url (.get name) (Url.stem url.path ++ '/' :: Name.unrooted name)) ∧
    (∀ name other bearer bearer' request request', Name.validate name = .ok () →
      Name.validate other = .ok () → (ofUrl base).request (.get name) bearer = .ok request →
      (ofUrl base).request (.get other) bearer' = .ok request' →
      (request.url.target = request'.url.target ↔ Name.unrooted name = Name.unrooted other)) ∧
    (∀ id : String, Url.IsOpaque id.toList →
      ∃ segment, '/' ∉ segment ∧ '?' ∉ segment ∧ '#' ∉ segment ∧
        Percent.decodeText? segment = some id ∧
        (ofUrl base).Asks url (.getById id) (Url.stem url.path ++ "/id/".toList ++ segment)) ∧
    (∀ (id other : String) bearer bearer' request request', Url.IsOpaque id.toList →
      Url.IsOpaque other.toList → (ofUrl base).request (.getById id) bearer = .ok request →
      (ofUrl base).request (.getById other) bearer' = .ok request' →
      (request.url.target = request'.url.target ↔ id = other)) := by
  have special : Url.isSpecial url.scheme = true := by
    rcases web with same | same <;> rw [same] <;> rfl
  refine ⟨?_, ?_, ?_, ?_, ?_⟩
  · exact ofUrl_append_slashes base
  · intro name valid
    exact asks_get read special plain (Name.validate_eq_ok_iff.mp valid)
  · intro name other bearer bearer' request request' valid validOther made madeOther
    have asks := asks_get read special plain (Name.validate_eq_ok_iff.mp valid)
    have asksOther := asks_get read special plain (Name.validate_eq_ok_iff.mp validOther)
    rw [asks.target_eq_iff asksOther made madeOther]
    simp
  · intro id own
    obtain ⟨slash, query, fragment⟩ := Percent.not_mem_encode_inSegment id.toList
    exact ⟨_, slash, query, fragment, Percent.decodeText?_encode rfl id,
      asks_getById read special plain own⟩
  · intro id other bearer bearer' request request' own ownOther made madeOther
    have asks := asks_getById read special plain own
    have asksOther := asks_getById read special plain ownOther
    rw [asks.target_eq_iff asksOther made madeOther, List.append_cancel_left_eq]
    constructor
    · intro same
      have texts := congrArg Percent.decodeText? same
      rw [Percent.decodeText?_encode rfl, Percent.decodeText?_encode rfl] at texts
      exact Option.some.inj texts
    · rintro rfl
      rfl

/-- A server with a path and slashes behind it. -/
theorem targets_identify_opaque :
    let url : Url := ⟨"https", "", none, some (.domain "config-server"), some 8080,
      .segments ["v1".toList, "data".toList], none, none⟩
    Url.parse (ofUrl "https://config-server:8080/v1/data//").base.toList = .ok url ∧
      url.scheme = "https" ∧ url.query = none ∧ Url.stem url.path = "/v1/data".toList ∧
      Name.validate "/d1/orders/db_pw" = .ok () ∧
      (ofUrl "https://config-server:8080/v1/data//").Asks url (.get "/d1/orders/db_pw")
        "/v1/data/d1/orders/db_pw".toList ∧
      Url.IsOpaque "a/b c?".toList ∧
      ∃ segment, '/' ∉ segment ∧ Percent.decodeText? segment = some "a/b c?" ∧
        (ofUrl "https://config-server:8080/v1/data//").Asks url (.getById "a/b c?")
          ("/v1/data/id/".toList ++ segment) := by
  intro url
  have read : Url.parse (ofUrl "https://config-server:8080/v1/data//").base.toList = .ok url := by
    decide +kernel
  have valid : Name.validate "/d1/orders/db_pw" = .ok () := by decide
  have own : Url.IsOpaque "a/b c?".toList := ⟨by decide, by decide, by simp [Url.isLineBreak]⟩
  obtain ⟨_, named, _, identified, _⟩ := targets_identify read (.inr rfl) rfl
  obtain ⟨segment, slash, _, _, decoded, asks⟩ := identified "a/b c?" own
  exact ⟨read, rfl, rfl, rfl, valid, named "/d1/orders/db_pw" valid, own, segment, slash, decoded,
    asks⟩

end Endpoint

end ManifestVariables
