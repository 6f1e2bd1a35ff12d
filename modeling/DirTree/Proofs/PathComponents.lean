import DirTree.Proofs.PathAlgebra

/-!
# Splitting a path and joining it again

The OS reads a path as its components, the non-empty pieces between `/` bytes. Appending bytes
to a path is concatenation of components: nothing is merged with its neighbour or dropped at the
junction, and whether the path starts at `/` does not change (`append_concatenates_components`).

The last `/` splits a path into its directory part and its base name, which holds no `/`. The
split undoes an append of an entry name, and the in-place edits, which find the last `/` by its
position, cut where the copying ones do (`basename_dirname_invert_append`):

    p.dirname ++ "/" ++ p.basename = p                  (p holds a '/')
    (d.append n).basename = n
    (d.append n).dirname = d                            (d does not end in '/')
                         = d without its last '/'       (d ends in '/')

Every statement follows from the shape of the bytes around the last `/` (`last_slash_cases`)
and the three shapes of a path's end that decide the separator (`sep_cases`).
-/

namespace DirTree

open Bytes

namespace Bytes

theorem exists_last_slash {l : Bytes} (h : slash ∈ l) : ∃ a b, l = a ++ slash :: b ∧ slash ∉ b := by
  induction l with
  | nil => cases h
  | cons x l ih =>
    by_cases hl : slash ∈ l
    · obtain ⟨a, b, rfl, hb⟩ := ih hl
      exact ⟨x :: a, b, rfl, hb⟩
    · have hx : slash = x := by simpa [hl] using h
      exact ⟨[], l, by rw [hx]; rfl, hl⟩

end Bytes

namespace Path

/-! ## Where the last `/` is -/

section LastSlash

variable {a b : Bytes}

theorem lastSeparator_of_last_slash (hb : slash ∉ b) :
    (⟨a ++ slash :: b⟩ : Path).lastSeparator = some a.length := by
  have hnone : b.reverse.findIdx? (· == slash) = none := by
    rw [List.findIdx?_eq_none_iff]
    intro x hx
    simpa using not_slash_of_not_mem hb x hx
  simp only [lastSeparator, len, List.reverse_append, List.reverse_cons, List.append_assoc,
    List.singleton_append, List.findIdx?_append, hnone, List.findIdx?_cons, beq_self_eq_true,
    if_true, Option.none_or, Option.map_some, List.length_append, List.length_cons,
    List.length_reverse]
  congr 1
  omega

theorem lastSeparator_of_no_slash {p : Path} (h : slash ∉ p.bytes) : p.lastSeparator = none := by
  have hnone : p.bytes.reverse.findIdx? (· == slash) = none := by
    rw [List.findIdx?_eq_none_iff]
    intro x hx
    simpa using not_slash_of_not_mem h x hx
  simp [lastSeparator, hnone]

end LastSlash

theorem last_slash_cases (p : Path) :
    (∃ a b, p = ⟨a ++ slash :: b⟩ ∧ slash ∉ b) ∨ slash ∉ p.bytes := by
  by_cases h : slash ∈ p.bytes
  · obtain ⟨a, b, hab, hb⟩ := exists_last_slash h
    exact .inl ⟨a, b, by rw [← hab], hb⟩
  · exact .inr h

theorem slash_not_mem_basename (p : Path) : slash ∉ p.basename.bytes := by
  rcases last_slash_cases p with ⟨a, b, rfl, hb⟩ | h
  · rwa [basename_of_last_slash hb]
  · rwa [basename_of_no_slash h]

theorem basename_append_slash (a r : Bytes) :
    (⟨a ++ slash :: r⟩ : Path).basename = (⟨r⟩ : Path).basename := by
  by_cases h : slash ∈ r
  · -- the last `/` lies in `r`
    obtain ⟨a', b, rfl, hb⟩ := exists_last_slash h
    have hre : a ++ slash :: (a' ++ slash :: b) = (a ++ slash :: a') ++ slash :: b := by simp
    rw [hre, basename_of_last_slash hb, basename_of_last_slash hb]
  · rw [basename_of_last_slash h, basename_of_no_slash h]

/-- A path with a `/` is its directory part, that `/`, and its base name. -/
theorem dirname_slash_basename {p : Path} (h : slash ∈ p.bytes) :
    p.dirname.bytes ++ slash :: p.basename.bytes = p.bytes := by
  rcases last_slash_cases p with ⟨a, b, rfl, hb⟩ | h'
  · rw [dirname_of_last_slash hb, basename_of_last_slash hb]
  · exact absurd h h'

theorem setBasename_eq_basename (p : Path) : p.setBasename = p.basename := by
  rcases last_slash_cases p with ⟨a, b, rfl, hb⟩ | h
  · simp [setBasename, lastSeparator_of_last_slash hb, basename_of_last_slash hb]
  · simp [setBasename, lastSeparator_of_no_slash h, basename_of_no_slash h]

theorem setDirname_eq_dirname (p : Path) : p.setDirname = p.dirname := by
  rcases last_slash_cases p with ⟨a, b, rfl, hb⟩ | h
  · simp [setDirname, lastSeparator_of_last_slash hb, dirname_of_last_slash hb]
  · simp [setDirname, lastSeparator_of_no_slash h, dirname_of_no_slash h]

/-! ## The separator an append puts in -/

/-- Bytes put after a path, past its separator, are split off again at the last `/`. -/
theorem split_append_sep (p : Path) {n : Bytes} (hn : slash ∉ n) :
    (⟨p.bytes ++ p.sep ++ n⟩ : Path).basename = ⟨n⟩ ∧
      (p.bytes = [] → (⟨p.bytes ++ p.sep ++ n⟩ : Path).dirname = empty) ∧
      (endsWithSlash p.bytes = true →
        (⟨p.bytes ++ p.sep ++ n⟩ : Path).dirname = ⟨p.bytes.dropLast⟩) ∧
      (p.bytes ≠ [] → endsWithSlash p.bytes = false →
        (⟨p.bytes ++ p.sep ++ n⟩ : Path).dirname = p) := by
  rcases sep_cases p with ⟨he, hs⟩ | ⟨hend, hs⟩ | ⟨he, hend, hs⟩
  · -- nothing before the name: it is all base name
    have hn' : slash ∉ (⟨p.bytes ++ p.sep ++ n⟩ : Path).bytes := by simpa [he, hs] using hn
    refine ⟨?_, fun _ => dirname_of_no_slash hn', fun h => by simp [he, endsWithSlash] at h,
      fun h => absurd he h⟩
    rw [basename_of_no_slash hn']
    simp [he, hs]
  · -- the path's own last `/` separates the name
    obtain ⟨a, ha⟩ := exists_eq_append_slash hend
    have hb : p.bytes ++ p.sep ++ n = a ++ slash :: n := by simp [ha, hs]
    have hdl : p.bytes.dropLast = a := by simp [ha]
    rw [hb, hdl]
    refine ⟨basename_of_last_slash hn, fun h => by simp [h, endsWithSlash] at hend,
      fun _ => dirname_of_last_slash hn, fun _ h => by simp [hend] at h⟩
  · -- one `/` is put between the path and the name
    have hb : p.bytes ++ p.sep ++ n = p.bytes ++ slash :: n := by simp [hs]
    rw [hb]
    refine ⟨basename_of_last_slash hn, fun h => absurd h he, fun h => by simp [hend] at h,
      fun _ _ => dirname_of_last_slash hn⟩

/-! ## Splitting undoes appending a name -/

/-- **The last `/` splits a path, and the split undoes appending a name.** The base name holds
no `/`; a path with a `/` is its directory part, that `/` and its base name, and one without is
its own base name with an empty directory part; the in-place edits give the same parts. A name
appended to a path is the base name again, and the directory part is the path, less the `/` it
ended in if it did. -/
theorem basename_dirname_invert_append :
    (∀ p : Path, slash ∉ p.basename.bytes ∧
      (slash ∈ p.bytes → p.dirname.bytes ++ slash :: p.basename.bytes = p.bytes) ∧
      (slash ∉ p.bytes → p.basename = p ∧ p.dirname = empty) ∧
      p.setBasename = p.basename ∧ p.setDirname = p.dirname) ∧
    ∀ (d : Path) (n : Bytes), EntryName n →
      (d.append n).basename = ⟨n⟩ ∧
      (endsWithSlash d.bytes = false → (d.append n).dirname = d) ∧
      (endsWithSlash d.bytes = true → (d.append n).dirname = ⟨d.bytes.dropLast⟩) := by
  refine ⟨fun p => ⟨slash_not_mem_basename p, dirname_slash_basename,
    fun h => ⟨basename_of_no_slash h, dirname_of_no_slash h⟩, setBasename_eq_basename p,
    setDirname_eq_dirname p⟩, fun d n hn => ?_⟩
  obtain ⟨hbase, hempty, hend, hplain⟩ := split_append_sep d hn.2.1
  rw [append_name hn]
  refine ⟨hbase, fun h => ?_, hend⟩
  by_cases he : d.bytes = []
  · -- an empty path is its own directory part once the name is split off
    rw [hempty he]
    cases d
    simp_all [empty]
  · exact hplain he h

/-- The parts of `a//b`, and the name `c` appended to the directory `a/`. -/
theorem basename_dirname_invert_append_at_slash_dir :
    EntryName [99] ∧
      (⟨[97, 47, 47, 98]⟩ : Path).dirname.bytes ++ slash :: (⟨[97, 47, 47, 98]⟩ : Path).basename.bytes =
        [97, 47, 47, 98] ∧
      ((⟨[97, 47]⟩ : Path).append [99]).basename = ⟨[99]⟩ ∧
      ((⟨[97, 47]⟩ : Path).append [99]).dirname = ⟨[97]⟩ :=
  have hn : EntryName [99] := by decide
  have hd := basename_dirname_invert_append.2 ⟨[97, 47]⟩ [99] hn
  ⟨hn, (basename_dirname_invert_append.1 ⟨[97, 47, 47, 98]⟩).2.1 (by decide), hd.1,
    hd.2.2 (by decide)⟩

/-! ## Appending concatenates components -/

/-- Appending bytes that do not start with `/` adds their components after the path's. -/
theorem components_append_of_relative (p : Path) {m : Bytes} {c : UInt8} {t : Bytes}
    (hm : cutNul m = c :: t) (hc : c ≠ slash) :
    components (p.append m).bytes = components p.bytes ++ components (c :: t) := by
  rw [append_of_relative hm hc, components_append_sep]

theorem startsWithSlash_append_of_relative (p : Path) {m : Bytes} {c : UInt8} {t : Bytes}
    (hm : cutNul m = c :: t) (hc : c ≠ slash) :
    startsWithSlash (p.append m).bytes = startsWithSlash p.bytes := by
  rw [append_of_relative hm hc]
  by_cases he : p.bytes = []
  · simp [he, sep, startsWithSlash, hc]
  · -- the first byte is the path's own
    obtain ⟨x, xs, hx⟩ := List.exists_cons_of_ne_nil he
    simp [hx, startsWithSlash]

/-- **Appending is concatenation of components.** Of the bytes appended only those before the
first NUL count: none leave the path as it is, a leading `/` replaces it, and otherwise the
components of the result are the path's followed by those appended, and the result starts at
`/` exactly when the path does. -/
theorem append_concatenates_components (p : Path) (m : Bytes) :
    (cutNul m = [] → p.append m = p) ∧
    (startsWithSlash (cutNul m) = true → p.append m = ⟨cutNul m⟩) ∧
    (cutNul m ≠ [] → startsWithSlash (cutNul m) = false →
      components (p.append m).bytes = components p.bytes ++ components (cutNul m) ∧
      startsWithSlash (p.append m).bytes = startsWithSlash p.bytes) := by
  refine ⟨append_of_cut_nil, fun habs => ?_, fun hne hrel => ?_⟩
  · obtain ⟨c, t, hct⟩ := List.exists_cons_of_ne_nil
      (show cutNul m ≠ [] by rintro h; simp [h, startsWithSlash] at habs)
    have hc : c = slash := by simpa [hct, startsWithSlash] using habs
    subst hc
    rw [append_of_absolute hct, hct]
  · obtain ⟨c, t, hct⟩ := List.exists_cons_of_ne_nil hne
    have hc : c ≠ slash := by simpa [hct, startsWithSlash] using hrel
    rw [hct]
    exact ⟨components_append_of_relative p hct hc, startsWithSlash_append_of_relative p hct hc⟩

/-- Appending `b` cut at a NUL, `/c` and nothing to the directory `a/`. -/
theorem append_concatenates_components_at_slash_dir :
    ((⟨[97, 47]⟩ : Path).append [0] = ⟨[97, 47]⟩) ∧
    ((⟨[97, 47]⟩ : Path).append [47, 99] = ⟨[47, 99]⟩) ∧
    (cutNul [98, 0, 100] ≠ [] ∧ startsWithSlash (cutNul [98, 0, 100]) = false ∧
      components ((⟨[97, 47]⟩ : Path).append [98, 0, 100]).bytes = [[97], [98]]) :=
  have h₀ := append_concatenates_components ⟨[97, 47]⟩ [0]
  have h₁ := append_concatenates_components ⟨[97, 47]⟩ [47, 99]
  have h₂ := append_concatenates_components ⟨[97, 47]⟩ [98, 0, 100]
  have hne : cutNul [98, 0, 100] ≠ [] := by decide
  have hrel : startsWithSlash (cutNul [98, 0, 100]) = false := by decide
  ⟨h₀.1 (by decide), h₁.2.1 (by decide), hne, hrel, by rw [(h₂.2.2 hne hrel).1]; decide⟩

end Path

end DirTree
