import Mathlib.Data.List.TakeWhile
import DirTree.Walk

/-!
# Entry names and the paths built from them

A directory lists names that are not empty and hold no `/` and no NUL. Appending such a name to
a path only adds bytes: the path stays a prefix, one `/` stands between the two unless the path
is empty or already ends in `/`, and cutting back to the path's length undoes the append. This
is what lets a walk reuse one child handle for every entry.

    (p.append n).bytes = p.bytes ++ p.sep ++ n
    (p.append n).truncate p.len = p
    (⟨a ++ "/" ++ b⟩ : Path).dirname = a,  .basename = b      (no `/` in b)
    (slot.enter n w).2.file = ⟨(slot.file.path.truncate slot.baseLen).append n, kind looked up afresh⟩
                            = ⟨dir.append n, kind looked up afresh⟩    (slot based on dir)
-/

namespace DirTree

open Bytes

/-- A name a directory can list: not empty, with no `/` and no NUL. -/
def EntryName (n : Bytes) : Prop := n ≠ [] ∧ Bytes.slash ∉ n ∧ (0 : UInt8) ∉ n

instance (n : Bytes) : Decidable (EntryName n) := inferInstanceAs (Decidable (_ ∧ _ ∧ _))

namespace Bytes

theorem cutNul_eq_self {b : Bytes} (h : (0 : UInt8) ∉ b) : cutNul b = b := by
  unfold cutNul
  rw [List.takeWhile_eq_self_iff]
  intro x hx
  have hx0 : x ≠ 0 := fun h0 => h (h0 ▸ hx)
  simpa using hx0

theorem pieces_ne_nil (b : Bytes) : pieces b ≠ [] := by
  cases b with
  | nil => simp [pieces]
  | cons x rest =>
    unfold pieces
    split
    · simp
    · split <;> simp

theorem pieces_append_slash (a b : Bytes) : pieces (a ++ slash :: b) = pieces a ++ pieces b := by
  induction a with
  | nil => simp [pieces]
  | cons x a ih =>
    rw [List.cons_append]
    by_cases hx : (x == slash) = true
    · simp only [pieces, hx, if_true, ih, List.cons_append]
    · have hx' : (x == slash) = false := by simpa using hx
      obtain ⟨p, ps, hps⟩ := List.exists_cons_of_ne_nil (pieces_ne_nil a)
      simp only [pieces, hx', Bool.false_eq_true, if_false, ih, hps, List.cons_append]

theorem pieces_of_no_slash {b : Bytes} (h : slash ∉ b) : pieces b = [b] := by
  induction b with
  | nil => rfl
  | cons x rest ih =>
    have hx : (x == slash) = false := by
      simp only [beq_eq_false_iff_ne]
      rintro rfl
      exact h List.mem_cons_self
    have hrest : slash ∉ rest := fun hr => h (List.mem_cons_of_mem x hr)
    simp [pieces, hx, ih hrest]

theorem components_append_slash (a b : Bytes) :
    components (a ++ slash :: b) = components a ++ components b := by
  simp [components, pieces_append_slash]

theorem components_name {n : Bytes} (hn : EntryName n) : components n = [n] := by
  simp [components, pieces_of_no_slash hn.2.1, hn.1]

theorem components_append_slash_end (a : Bytes) : components (a ++ [slash]) = components a := by
  simpa [components, pieces] using components_append_slash a []

theorem exists_eq_append_slash {b : Bytes} (h : endsWithSlash b = true) :
    ∃ a, b = a ++ [slash] := by
  obtain ⟨a, x, rfl⟩ := (List.eq_nil_or_concat b).resolve_left (by rintro rfl; simp [endsWithSlash] at h)
  have hx : x = slash := by simpa [endsWithSlash] using h
  exact ⟨a, by simp [hx]⟩

end Bytes

namespace Path

/-- The bytes `append` puts between a path and a name: none after an empty path or a final
`/`, one `/` otherwise. -/
def sep (p : Path) : Bytes := if p.bytes.isEmpty || endsWithSlash p.bytes then [] else [slash]

theorem append_name {p : Path} {n : Bytes} (hn : EntryName n) :
    p.append n = ⟨p.bytes ++ p.sep ++ n⟩ := by
  obtain ⟨hne, hs, h0⟩ := hn
  unfold append
  rw [Bytes.cutNul_eq_self h0]
  cases n with
  | nil => exact absurd rfl hne
  | cons c rest =>
    have hc : (c == slash) = false := by
      simp only [beq_eq_false_iff_ne]
      rintro rfl
      exact hs List.mem_cons_self
    simp only [hc, Bool.false_eq_true, if_false, sep]
    split <;> simp

theorem prefix_append_name (p : Path) {n : Bytes} (hn : EntryName n) :
    p.bytes <+: (p.append n).bytes := by
  rw [append_name hn, List.append_assoc]
  exact List.prefix_append _ _

theorem truncate_of_prefix {p q : Path} (h : p.bytes <+: q.bytes) : q.truncate p.len = p := by
  obtain ⟨t, ht⟩ := h
  simp only [truncate, len, ← ht, List.take_left']

theorem append_name_ne_empty (p : Path) {n : Bytes} (hn : EntryName n) :
    (p.append n).bytes ≠ [] := by
  rw [append_name hn]
  simp [hn.1]

/-- A path is empty, ends in `/`, or is neither, and only in the last case does an append put a
`/` after it. -/
theorem sep_cases (p : Path) :
    (p.bytes = [] ∧ p.sep = []) ∨ (endsWithSlash p.bytes = true ∧ p.sep = []) ∨
      (p.bytes ≠ [] ∧ endsWithSlash p.bytes = false ∧ p.sep = [slash]) := by
  by_cases he : p.bytes = []
  · exact .inl ⟨he, by simp [sep, he]⟩
  · cases hs : endsWithSlash p.bytes with
    | true => exact .inr (.inl ⟨rfl, by simp [sep, hs]⟩)
    | false => exact .inr (.inr ⟨he, rfl, by simp [sep, he, hs]⟩)

/-- What follows a path past its separator adds its components after the path's: the separator
or the path's own last `/` stands between them, and adds no component. -/
theorem components_append_sep (p : Path) (m : Bytes) :
    components (p.bytes ++ p.sep ++ m) = components p.bytes ++ components m := by
  rcases sep_cases p with ⟨he, hs⟩ | ⟨hend, hs⟩ | ⟨-, -, hs⟩
  · simp [he, hs, components, pieces]
  · obtain ⟨a, ha⟩ := exists_eq_append_slash hend
    rw [hs, List.append_nil, ha, List.append_assoc, List.singleton_append,
      components_append_slash, components_append_slash_end]
  · rw [hs, List.append_assoc, List.singleton_append, components_append_slash]

/-- The components of a path with a name appended are the path's and the name. -/
theorem components_append_name (p : Path) {n : Bytes} (hn : EntryName n) :
    components (p.append n).bytes = components p.bytes ++ [n] := by
  rw [append_name hn, components_append_sep, components_name hn]

theorem endsWithSlash_append_name (p : Path) {n : Bytes} (hn : EntryName n) :
    endsWithSlash (p.append n).bytes = false := by
  rw [append_name hn]
  obtain ⟨a, x, hax⟩ := (List.eq_nil_or_concat n).resolve_left hn.1
  have hx : x ≠ slash := fun h => hn.2.1 (by rw [hax, h]; simp)
  simp [endsWithSlash, hax, hx]

theorem startsWithSlash_append_name {p : Path} (hp : p.bytes ≠ []) {n : Bytes}
    (hn : EntryName n) : startsWithSlash (p.append n).bytes = startsWithSlash p.bytes := by
  rw [append_name hn]
  obtain ⟨x, xs, hx⟩ := List.exists_cons_of_ne_nil hp
  simp [startsWithSlash, hx]

/-! ### The split at the last `/` -/

section LastSlash

variable {a b : Bytes}

theorem not_slash_of_not_mem (hb : slash ∉ b) : ∀ x ∈ b.reverse, (x != slash) = true := by
  intro x hx
  have hne : x ≠ slash := fun h => hb (h ▸ List.mem_reverse.mp hx)
  simpa using hne

theorem basename_of_last_slash (hb : slash ∉ b) : (⟨a ++ slash :: b⟩ : Path).basename = ⟨b⟩ := by
  simp only [basename, List.reverse_append, List.reverse_cons, List.append_assoc,
    List.singleton_append]
  rw [List.takeWhile_append_of_pos (not_slash_of_not_mem hb)]
  simp [slash]

theorem dirname_of_last_slash (hb : slash ∉ b) : (⟨a ++ slash :: b⟩ : Path).dirname = ⟨a⟩ := by
  simp only [dirname, List.reverse_append, List.reverse_cons, List.append_assoc,
    List.singleton_append]
  rw [List.dropWhile_append_of_pos (not_slash_of_not_mem hb)]
  simp [slash]

theorem basename_of_no_slash {p : Path} (h : slash ∉ p.bytes) : p.basename = p := by
  have hall := not_slash_of_not_mem h
  simp [basename, List.takeWhile_eq_self_iff.mpr hall]

theorem dirname_of_no_slash {p : Path} (h : slash ∉ p.bytes) : p.dirname = empty := by
  have hall := not_slash_of_not_mem h
  simp [dirname, List.dropWhile_eq_nil_iff.mpr hall, empty]

end LastSlash

/-- The directory part of a path with a name appended is the path, when the path is not empty
and does not end in `/`. -/
theorem dirname_append_name {p : Path} (hp : p.bytes ≠ []) (hs : endsWithSlash p.bytes = false)
    {n : Bytes} (hn : EntryName n) : (p.append n).dirname = p := by
  have hsep : p.sep = [slash] := by simp [sep, hp, hs]
  rw [append_name hn, hsep, List.append_assoc, List.singleton_append]
  exact dirname_of_last_slash hn.2.1

/-- The directory part of a name appended to nothing or to `/` is nothing. -/
theorem dirname_append_name_of_base {p : Path} (hp : p.bytes = [] ∨ p.bytes = [slash])
    {n : Bytes} (hn : EntryName n) : (p.append n).dirname = ⟨[]⟩ := by
  rw [append_name hn]
  rcases hp with hp | hp
  · -- the name alone holds no `/`
    have hsep : p.sep = [] := by simp [sep, hp]
    rw [hsep, hp]
    exact dirname_of_no_slash hn.2.1
  · -- the `/` of the path is the last one
    have hsep : p.sep = [] := by simp [sep, hp, endsWithSlash]
    rw [hsep, hp, List.append_nil, List.singleton_append, ← List.nil_append (slash :: n)]
    exact dirname_of_last_slash hn.2.1

end Path

namespace ChildSlot

/-- The slot keeps the directory's path `dir` as the prefix its child's path is cut back to. -/
def Based (dir : Path) (slot : ChildSlot) : Prop :=
  slot.baseLen = dir.len ∧ dir.bytes <+: slot.file.path.bytes

theorem new_based (dir : Handle) : (new dir).Based dir.path :=
  ⟨rfl, List.prefix_refl _⟩

/-- A slot stays based on `dir` when its handle is replaced by one on the same path. -/
theorem Based.withFile {dir : Path} {slot : ChildSlot} (hs : slot.Based dir) {f : Handle}
    (hf : f.path = slot.file.path) : ({ slot with file := f } : ChildSlot).Based dir :=
  ⟨hs.1, hf ▸ hs.2⟩

/-- Entering a name from any slot: the handle's path is cut back to the slot's length, the name
is appended, and the kind is looked up there afresh. -/
theorem enter_look (slot : ChildSlot) (n : Bytes) (w : World) :
    slot.enter n w =
      match Handle.look w ((slot.file.path.truncate slot.baseLen).append n) with
      | .ok k =>
        (.ok k, { slot with file := ⟨(slot.file.path.truncate slot.baseLen).append n, some k⟩ })
      | .error e =>
        (.error e, { slot with file := ⟨(slot.file.path.truncate slot.baseLen).append n, none⟩ }) := by
  simp only [enter, Handle.invalidate, Handle.classify]
  cases Handle.look w ((slot.file.path.truncate slot.baseLen).append n) <;> rfl

theorem enter_of_look {slot : ChildSlot} {n : Bytes} {w : World} {k : Kind}
    (h : Handle.look w ((slot.file.path.truncate slot.baseLen).append n) = .ok k) :
    slot.enter n w =
      (.ok k, { slot with file := ⟨(slot.file.path.truncate slot.baseLen).append n, some k⟩ }) := by
  rw [enter_look, h]

/-- **Entering a name.** A slot based on `dir` moves to the path `dir.append n`, and knows the
kind found there now, or nothing when looking fails; it stays based on `dir`. -/
theorem enter_eq {dir : Path} {slot : ChildSlot} (hs : slot.Based dir) (n : Bytes) (w : World) :
    slot.enter n w =
      match Handle.look w (dir.append n) with
      | .ok k => (.ok k, { slot with file := ⟨dir.append n, some k⟩ })
      | .error e => (.error e, { slot with file := ⟨dir.append n, none⟩ }) := by
  obtain ⟨hlen, hpre⟩ := hs
  rw [enter_look, hlen, Path.truncate_of_prefix hpre]

theorem enter_based {dir : Path} {slot : ChildSlot} (hs : slot.Based dir) {n : Bytes}
    (hn : EntryName n) (w : World) : (slot.enter n w).2.Based dir := by
  rw [enter_eq hs n]
  refine ⟨?_, ?_⟩ <;> cases Handle.look w (dir.append n)
  all_goals first | exact hs.1 | exact Path.prefix_append_name dir hn

end ChildSlot

end DirTree
