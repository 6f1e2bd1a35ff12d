import DirTree.Proofs.EntryName
import DirTree.Path.Absolute

/-!
# The algebra of paths

Every path the path operations build holds no NUL byte, so handing its bytes to the OS and
reading them back gives the same path (`Built.nulFree`). On such paths appending is a monoid
with the empty path as its unit, and a chain of appends can be regrouped at will:

    (p.appendPath q).appendPath r = p.appendPath (q.appendPath r)     (q holds no NUL)
    empty.appendPath p = p = p.appendPath empty                       (p holds no NUL)
    ms.foldl append p = p.appendPath (ms.foldl append empty)

`append` looks at its argument only through the bytes before their first NUL, and then in one of
three ways: nothing is left, it starts with `/`, or it does not (`append_of_cut_nil`,
`append_of_absolute`, `append_of_relative`). The laws follow by splitting on those shapes.
-/

namespace DirTree

open Bytes

namespace Bytes

theorem cutNul_cutNul (b : Bytes) : cutNul (cutNul b) = cutNul b :=
  cutNul_eq_self (cutNul_no_nul b)

/-- The bytes after the cut start at the first NUL, if there is one. -/
theorem cutNul_append_rest (b : Bytes) :
    ∃ rest, b = cutNul b ++ rest ∧ (rest = [] ∨ rest.head? = some 0) := by
  refine ⟨b.dropWhile (· != 0), (List.takeWhile_append_dropWhile).symm, ?_⟩
  cases hd : b.dropWhile (· != 0) with
  | nil => exact .inl rfl
  | cons x rest =>
    have hx := List.head_dropWhile_not (· != 0) (l := b) (by simp [hd])
    simp only [hd, List.head_cons, bne_eq_false_iff_eq] at hx
    exact .inr (by simp [hx])

theorem endsWithSlash_append_of_ne_nil (a : Bytes) {b : Bytes} (hb : b ≠ []) :
    endsWithSlash (a ++ b) = endsWithSlash b := by
  obtain ⟨b', x, rfl⟩ := (List.eq_nil_or_concat b).resolve_left hb
  simp [endsWithSlash]

end Bytes

namespace Path

/-- Whether a path holds no NUL byte. -/
def NulFree (p : Path) : Prop := (0 : UInt8) ∉ p.bytes

instance (p : Path) : Decidable p.NulFree := inferInstanceAs (Decidable (_ ∉ _))

/-! ## `append` by the shape of what is appended -/

section Shapes

variable {p : Path} {m : Bytes}

theorem append_of_cut_nil (h : cutNul m = []) : p.append m = p := by
  simp [append, h]

theorem append_of_absolute {t : Bytes} (h : cutNul m = slash :: t) :
    p.append m = ⟨slash :: t⟩ := by
  simp [append, h]

theorem append_of_relative {c : UInt8} {t : Bytes} (h : cutNul m = c :: t) (hc : c ≠ slash) :
    p.append m = ⟨p.bytes ++ p.sep ++ c :: t⟩ := by
  have hc' : (c == slash) = false := by simpa using hc
  simp only [append, h, hc', Bool.false_eq_true, if_false, sep]
  split <;> simp

/-- `append` sees only the bytes before the first NUL. -/
@[simp] theorem append_cutNul (p : Path) (m : Bytes) : p.append (cutNul m) = p.append m := by
  simp only [append, cutNul_cutNul]

end Shapes

theorem sep_append {a b : Bytes} (hb : b ≠ []) :
    (⟨a ++ b⟩ : Path).sep = (⟨b⟩ : Path).sep := by
  simp [sep, hb, endsWithSlash_append_of_ne_nil a hb]

/-! ## No NUL in what the operations build -/

theorem nulFree_ofBytes (b : Bytes) : (ofBytes b).NulFree := cutNul_no_nul b

theorem ofBytes_bytes_eq {p : Path} (hp : p.NulFree) : ofBytes p.bytes = p := by
  simp [ofBytes, cutNul_eq_self hp]

theorem nulFree_sep (p : Path) : (0 : UInt8) ∉ p.sep := by
  unfold sep
  split <;> simp [slash]

theorem NulFree.append {p : Path} (hp : p.NulFree) (m : Bytes) : (p.append m).NulFree := by
  have hm := cutNul_no_nul m
  cases h : cutNul m with
  | nil => rwa [append_of_cut_nil h]
  | cons c t =>
    rw [h] at hm
    by_cases hc : c = slash
    · subst hc
      rwa [append_of_absolute h]
    · rw [append_of_relative h hc]
      simp only [NulFree, List.mem_append, not_or]
      exact ⟨⟨hp, nulFree_sep p⟩, hm⟩

theorem NulFree.appendPath {p : Path} (hp : p.NulFree) (q : Path) : (p.appendPath q).NulFree :=
  hp.append q.bytes

theorem NulFree.basename {p : Path} (hp : p.NulFree) : p.basename.NulFree := fun h =>
  hp (List.mem_reverse.mp ((List.takeWhile_sublist _).subset (List.mem_reverse.mp h)))

theorem NulFree.dirname {p : Path} (hp : p.NulFree) : p.dirname.NulFree := fun h =>
  hp (List.mem_reverse.mp
    ((List.dropWhile_sublist _).subset (List.mem_of_mem_drop (List.mem_reverse.mp h))))

theorem NulFree.absoluteIn {p : Path} (hp : p.NulFree) {cwd : Bytes} (hc : (0 : UInt8) ∉ cwd) :
    (p.absoluteIn cwd).NulFree := by
  unfold Path.absoluteIn
  split
  · exact hp
  · simpa [NulFree, slash, hc] using hp

/-- Made absolute against a working directory spelled without NUL, a path stays free of NUL. -/
theorem NulFree.absolute {p q : Path} (hp : p.NulFree) {w : World}
    (hw : ∀ cwd, w.getcwd = .ok cwd → (0 : UInt8) ∉ cwd) (h : p.absolute w = .ok q) :
    q.NulFree := by
  unfold Path.absolute at h
  split at h
  · cases h
    exact hp
  · split at h
    · rename_i cwd hcwd
      cases h
      exact hp.absoluteIn (hw cwd hcwd)
    · cases h

/-- The paths built from some bytes by the path operations; a path is made absolute in a world
whose working directory is spelled without NUL. The empty path, a path of a string and a copy
of a path are among them, as `ofBytes []`, `ofBytes` of the string's bytes and the path itself. -/
inductive Built : Path → Prop
  | ofBytes (b : Bytes) : Built (ofBytes b)
  | append {p : Path} (m : Bytes) : Built p → Built (p.append m)
  | appendPath {p q : Path} : Built p → Built q → Built (p.appendPath q)
  | basename {p : Path} : Built p → Built p.basename
  | dirname {p : Path} : Built p → Built p.dirname
  | absolute {p q : Path} (w : World) : (∀ cwd, w.getcwd = .ok cwd → (0 : UInt8) ∉ cwd) →
      Built p → p.absolute w = .ok q → Built q

theorem Built.nulFree {p : Path} (h : Built p) : p.NulFree := by
  induction h with
  | ofBytes b => exact nulFree_ofBytes b
  | append m _ ih => exact ih.append m
  | appendPath _ _ ih _ => exact ih.appendPath _
  | basename _ ih => exact ih.basename
  | dirname _ ih => exact ih.dirname
  | absolute w hw _ habs ih => exact ih.absolute hw habs

/-- **Paths are cut at NUL, and nothing is lost after.** Each way of making a path from bytes
keeps exactly the bytes before the first NUL, and all of them agree on the same bytes. Every path
built from there by the path operations holds no NUL, so handing its bytes over and making a path
of them again gives it back, and its length is the number of its bytes. -/
theorem built_paths_are_nul_free :
    (∀ b : Bytes, ∃ rest, b = (ofBytes b).bytes ++ rest ∧ (ofBytes b).NulFree ∧
      (rest = [] ∨ rest.head? = some 0)) ∧
    (empty = ofBytes [] ∧ (default : Path) = empty ∧
      ∀ s, ofString s = ofBytes (Bytes.ofString s)) ∧
    ∀ p, Built p → p.NulFree ∧ ofBytes p.bytes = p ∧ p.len = p.bytes.length := by
  refine ⟨fun b => ?_, ⟨rfl, rfl, fun _ => rfl⟩, fun p hp => ?_⟩
  · obtain ⟨rest, hb, hrest⟩ := cutNul_append_rest b
    exact ⟨rest, hb, nulFree_ofBytes b, hrest⟩
  · have h := hp.nulFree
    exact ⟨h, ofBytes_bytes_eq h, rfl⟩

/-- A path made from bytes with a NUL in them, a name appended and its directory part taken. -/
theorem built_path_cut_then_edited :
    Built ((ofBytes [97, 0, 98]).append [99, 0]).dirname ∧
      ((ofBytes [97, 0, 98]).append [99, 0]).dirname.NulFree ∧
      ofBytes ((ofBytes [97, 0, 98]).append [99, 0]).dirname.bytes =
        ((ofBytes [97, 0, 98]).append [99, 0]).dirname ∧
      ((ofBytes [97, 0, 98]).append [99, 0]).dirname.len =
        ((ofBytes [97, 0, 98]).append [99, 0]).dirname.bytes.length :=
  have hb : Built ((ofBytes [97, 0, 98]).append [99, 0]).dirname :=
    ((Built.ofBytes _).append _).dirname
  ⟨hb, built_paths_are_nul_free.2.2 _ hb⟩

/-! ## Appending is a monoid -/

theorem appendPath_empty (p : Path) : p.appendPath empty = p :=
  append_of_cut_nil rfl

theorem empty_append (m : Bytes) : empty.append m = ofBytes m := by
  cases h : cutNul m with
  | nil => rw [append_of_cut_nil h]; simp [ofBytes, h, empty]
  | cons c t =>
    by_cases hc : c = slash
    · subst hc
      rw [append_of_absolute h]
      simp [ofBytes, h]
    · rw [append_of_relative h hc]
      simp [ofBytes, h, empty, sep]

theorem empty_appendPath {p : Path} (hp : p.NulFree) : empty.appendPath p = p := by
  rw [appendPath, empty_append, ofBytes_bytes_eq hp]

theorem append_eq_appendPath (p : Path) (m : Bytes) : p.append m = p.appendPath (ofBytes m) := by
  simp [appendPath, ofBytes]

/-- A path free of NUL that starts with `/` replaces whatever it is appended to. -/
theorem appendPath_of_absolute (p : Path) {q : Path} (hq : q.NulFree) {t : Bytes}
    (h : q.bytes = slash :: t) : p.appendPath q = q := by
  rw [appendPath, append_of_absolute (by rw [cutNul_eq_self hq, h])]
  cases q
  simp_all

/-- A path free of NUL that does not start with `/` comes after whatever it is appended to, and
the separator that one needs. -/
theorem appendPath_of_relative (p : Path) {q : Path} (hq : q.NulFree) {c : UInt8} {t : Bytes}
    (h : q.bytes = c :: t) (hc : c ≠ slash) : p.appendPath q = ⟨p.bytes ++ p.sep ++ c :: t⟩ := by
  rw [appendPath, append_of_relative (by rw [cutNul_eq_self hq, h]) hc]

theorem append_startsWithSlash {q : Path} {t : Bytes} (h : q.bytes = slash :: t) (m : Bytes) :
    ∃ t', (q.append m).bytes = slash :: t' := by
  cases hm : cutNul m with
  | nil => exact ⟨t, by rw [append_of_cut_nil hm, h]⟩
  | cons c u =>
    by_cases hc : c = slash
    · subst hc
      exact ⟨u, by rw [append_of_absolute hm]⟩
    · exact ⟨t ++ q.sep ++ c :: u, by rw [append_of_relative hm hc, h]; simp⟩

/-- **Regrouping appends.** Appending `q` and then `r` is appending `q` with `r` appended. -/
theorem appendPath_assoc (p : Path) {q : Path} (hq : q.NulFree) (r : Path) :
    (p.appendPath q).appendPath r = p.appendPath (q.appendPath r) := by
  cases hqb : q.bytes with
  | nil =>
    -- an empty middle path: both sides append `r` to `p`
    have hq0 : q = empty := by cases q; simp_all [empty]
    subst hq0
    rw [appendPath_empty]
    simp only [appendPath, empty_append, ofBytes_bytes, append_cutNul]
  | cons c t =>
    by_cases hc : c = slash
    · -- a middle path from `/` replaces `p` on both sides
      subst hc
      obtain ⟨t', ht'⟩ := append_startsWithSlash hqb r.bytes
      rw [appendPath_of_absolute p hq hqb,
        appendPath_of_absolute p (hq.appendPath r) (by rw [appendPath]; exact ht')]
    · cases hr : cutNul r.bytes with
      | nil => simp only [appendPath, append_of_cut_nil hr]
      | cons d u =>
        by_cases hd : d = slash
        · subst hd
          have hu : cutNul (slash :: u) = slash :: u := by rw [← hr, cutNul_cutNul]
          simp only [appendPath, append_of_absolute hr, append_of_absolute hu]
        · -- both sides put the three pieces in a row, each followed by its own separator
          have hqr : (q.appendPath r).bytes = c :: (t ++ q.sep ++ d :: u) := by
            rw [appendPath, append_of_relative hr hd, hqb]
            simp
          have hsep : (⟨p.bytes ++ p.sep ++ c :: t⟩ : Path).sep = q.sep := by
            rw [sep_append (List.cons_ne_nil c t), ← hqb]
          rw [appendPath_of_relative p hq hqb hc, appendPath_of_relative p (hq.appendPath r) hqr hc,
            appendPath, append_of_relative hr hd, hsep]
          simp

example : ((ofBytes [97]).appendPath (ofBytes [98, 47])).appendPath (ofBytes [99]) =
    ⟨[97, 47, 98, 47, 99]⟩ := by decide

/-- A chain of appends, one after the other, is one append of the chain made from nothing. -/
theorem foldl_append_eq (p : Path) (ms : List Bytes) :
    ms.foldl append p = p.appendPath (ms.foldl append empty) := by
  induction ms generalizing p with
  | nil => exact (appendPath_empty p).symm
  | cons m ms ih =>
    have hm : (empty.append m).NulFree := by
      rw [empty_append]
      exact nulFree_ofBytes m
    rw [List.foldl_cons, List.foldl_cons, ih (p.append m), ih (empty.append m),
      ← appendPath_assoc p hm, empty_append, ← append_eq_appendPath]

/-- **Appending is a monoid on the paths the operations build.** Regrouping three paths changes
nothing, the empty path is a unit on both sides, appending bytes to the empty path makes the path
of those bytes, and appending bytes is appending their path; so a chain of appends is one append
of the chain made from nothing. -/
theorem appendPath_monoid (p q r : Path) (hp : Built p) (hq : Built q) (m : Bytes)
    (ms : List Bytes) :
    (p.appendPath q).appendPath r = p.appendPath (q.appendPath r) ∧
      empty.appendPath p = p ∧ p = p.appendPath empty ∧
      empty.append m = ofBytes m ∧ p.append m = p.appendPath (ofBytes m) ∧
      ms.foldl append p = p.appendPath (ms.foldl append empty) :=
  ⟨appendPath_assoc p hq.nulFree r, empty_appendPath hp.nulFree, (appendPath_empty p).symm,
    empty_append m, append_eq_appendPath p m, foldl_append_eq p ms⟩

/-- The laws at a directory path ending in `/`, a name, and an absolute path, with bytes cut at a
NUL and a chain of a name and an absolute path. -/
theorem appendPath_monoid_at_slash_dir :
    Built (ofBytes [97, 47]) ∧ Built (ofBytes [98]) ∧
      ((ofBytes [97, 47]).appendPath (ofBytes [98])).appendPath (ofBytes [47, 99]) =
        (ofBytes [97, 47]).appendPath ((ofBytes [98]).appendPath (ofBytes [47, 99])) ∧
      empty.appendPath (ofBytes [97, 47]) = ofBytes [97, 47] ∧
      ofBytes [97, 47] = (ofBytes [97, 47]).appendPath empty ∧
      empty.append [100, 0, 101] = ofBytes [100, 0, 101] ∧
      (ofBytes [97, 47]).append [100, 0, 101] =
        (ofBytes [97, 47]).appendPath (ofBytes [100, 0, 101]) ∧
      [[120], [47, 121]].foldl append (ofBytes [97, 47]) =
        (ofBytes [97, 47]).appendPath ([[120], [47, 121]].foldl append empty) :=
  ⟨.ofBytes _, .ofBytes _,
    appendPath_monoid _ _ (ofBytes [47, 99]) (.ofBytes _) (.ofBytes _) [100, 0, 101]
      [[120], [47, 121]]⟩

end Path

end DirTree
