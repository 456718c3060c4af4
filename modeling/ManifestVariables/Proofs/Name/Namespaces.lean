import ManifestVariables.Proofs.Name.Absolute
import ManifestVariables.Proofs.Name.Grammar

/-!
# Namespaces of deployments

A relative name is qualified by putting the director and the deployment before it, with
slashes between. The name of a deployment may have slashes itself, and then it may lie within
another one's namespace: `Name.Within` says that the one goes on from the other with a path.
Two deployments share a qualified name just where one is within the other
(`Name.qualify_ne`, `Name.exists_qualify_eq_of_within`).
-/

namespace ManifestVariables.Name

variable {director first second name other : String}

/-- The name of a deployment goes on from another one with a path. -/
def Within (inner outer : String) : Prop :=
  ∃ path : String, inner = outer ++ "/" ++ path ∧ IsPath path.toList

theorem Within.isPrefix (within : Within first second) : second.toList <+: first.toList := by
  obtain ⟨path, rfl, _⟩ := within
  exact ⟨'/' :: path.toList, by simp⟩

/-- A valid name that does not start with a slash. -/
structure IsRelative (name : String) : Prop where
  valid : validate name = .ok ()
  relative : isAbsolute name = false

theorem IsPath.isRelative (path : IsPath name.toList) : IsRelative name where
  valid := validate_eq_ok_iff.mpr path.valid
  relative := by
    rw [isAbsolute, decide_eq_false_iff_not]
    exact path.relative

theorem toList_qualify (relative : isAbsolute name = false) :
    (qualify director first name).toList =
      '/' :: director.toList ++ '/' :: first.toList ++ '/' :: name.toList := by
  simp [qualify, relative, toString]

/-- Where two texts before a slash go on to the same text, one of them goes on from the other
with a path. -/
theorem within_of_append_eq (left : IsRelative name) (right : IsRelative other)
    (same : first.toList ++ '/' :: name.toList = second.toList ++ '/' :: other.toList)
    (different : first ≠ second) : Within first second ∨ Within second first := by
  have within {inner outer shorter longer : String} {between : List Char}
      (relative : IsRelative longer) (whole : inner.toList = outer.toList ++ between)
      (rest : '/' :: longer.toList = between ++ '/' :: shorter.toList) (unequal : inner ≠ outer) :
      Within inner outer := by
    cases between with
    | nil => exact absurd (String.toList_injective (by simpa using whole)) unequal
    | cons c path =>
      obtain ⟨rfl, split⟩ := List.cons.inj rest
      refine ⟨String.ofList path, String.toList_injective (by simp [whole]), ?_⟩
      rw [String.toList_ofList]
      have valid := validate_eq_ok_iff.mp relative.valid
      have start := relative.relative
      rw [isAbsolute, decide_eq_false_iff_not] at start
      rw [split] at valid start
      exact valid.isPath_of_append start
  rcases List.append_eq_append_iff.mp same with ⟨between, whole, rest⟩ | ⟨between, whole, rest⟩
  · exact .inr (within left whole rest (Ne.symm different))
  · exact .inl (within right whole rest different)

theorem qualify_ne (different : first ≠ second) (outside : ¬ Within first second)
    (apart : ¬ Within second first) (left : IsRelative name) (right : IsRelative other) :
    qualify director first name ≠ qualify director second other := by
  intro same
  have texts := congrArg String.toList same
  rw [toList_qualify left.relative, toList_qualify right.relative] at texts
  have rest : first.toList ++ '/' :: name.toList = second.toList ++ '/' :: other.toList := by
    simpa using texts
  exact (within_of_append_eq left right rest different).elim outside apart

/-- A deployment within another one has a qualified name in common with it. -/
theorem exists_qualify_eq_of_within (director : String) (within : Within first second) :
    ∃ name other, IsRelative name ∧ IsRelative other ∧
      qualify director first name = qualify director second other := by
  obtain ⟨path, rfl, isPath⟩ := within
  have longer : IsRelative (path ++ "/x") := by
    refine IsPath.isRelative ?_
    have whole : (path ++ "/x").toList = path.toList ++ '/' :: ['x'] := by simp
    rw [whole]
    exact isPath.append
      ⟨by simp, by simp, by simp, by decide, List.forall_mem_singleton.mpr (.inl (by decide))⟩
  have short : IsRelative "x" := ⟨by decide, by decide⟩
  refine ⟨"x", path ++ "/x", short, longer, String.toList_injective ?_⟩
  rw [toList_qualify short.relative, toList_qualify longer.relative]
  simp

end ManifestVariables.Name
