/-!
# The namespace codec

Physical names are logical names behind a segment for the organization, if there is one, and a
segment for the user. `isolate` puts the segments in front, `deisolate` takes them off again and
leaves a name of another namespace alone: `deisolate_isolate`, `isolate_deisolate`,
`deisolate_of_foreign`.
-/

namespace Tenancy.Namespace

/-- The character that ends a segment. -/
def delimiter : Char := ':'

/-- What every physical name of the namespace starts with. An empty organization is none. -/
def stem (org user : String) : String :=
  (if org = "" then "" else "org-" ++ org ++ ":") ++ "user-" ++ user ++ ":"

/-- The physical form of a logical name. -/
def isolate (org user logical : String) : String := stem org user ++ logical

/-- What follows `front` in `s`, if `s` starts with it. -/
def stripFront? (front s : String) : Option String :=
  if front.toList.isPrefixOf s.toList then some (String.ofList (s.toList.drop front.toList.length))
  else none

/-- The logical form of a physical name; a name of another namespace stays as it is. -/
def deisolate (org user physical : String) : String :=
  (stripFront? (stem org user) physical).getD physical

theorem stripFront?_append (front s : String) : stripFront? front (front ++ s) = some s := by
  simp [stripFront?, String.toList_append, List.isPrefixOf_iff_prefix]

theorem stripFront?_eq_some {front s rest : String} (h : stripFront? front s = some rest) :
    s = front ++ rest := by
  simp only [stripFront?, List.isPrefixOf_iff_prefix] at h
  split at h
  · next hp =>
    obtain ⟨t, ht⟩ := hp
    simp only [Option.some.injEq] at h
    subst h
    apply String.toList_inj.1
    simp [String.toList_append, ← ht]
  · simp at h

theorem deisolate_isolate (org user logical : String) :
    deisolate org user (isolate org user logical) = logical := by
  simp [deisolate, isolate, stripFront?_append]

theorem isolate_deisolate {org user physical : String}
    (h : (stem org user).toList <+: physical.toList) :
    isolate org user (deisolate org user physical) = physical := by
  obtain ⟨rest, hrest⟩ : ∃ rest, stripFront? (stem org user) physical = some rest := by
    simp [stripFront?, List.isPrefixOf_iff_prefix, h]
  rw [deisolate, hrest, Option.getD_some, isolate, ← stripFront?_eq_some hrest]

theorem deisolate_of_foreign {org user physical : String}
    (h : ¬ (stem org user).toList <+: physical.toList) : deisolate org user physical = physical := by
  simp [deisolate, stripFront?, List.isPrefixOf_iff_prefix, h]

end Tenancy.Namespace
