import DirTree.Disk.World

/-!
# Locations in the tree

A location is read by looking its names up one after the other, and a change made at a location
touches only the directories on the way to it and what lies below it:

    n.get? (l ++ l') = (n.get? l).bind (·.get? l')
    (n.modifyAt (l ++ rest) f).get? l = (n.get? l).map (·.modifyAt rest f)
    (n.modifyAt (x :: loc) f).child? y = n.child? y                    (y ≠ x)

A tree *grows into* another when every node it has is still there, at the same location, of the
same kind and with the same attributes (`Node.Grows`). A new entry under a name that was not
there makes a tree grow, and so does any change at a location that makes the node there grow;
dropping an entry is the reverse.
-/

namespace DirTree

namespace Node

theorem get?_append (n : Node) (l l' : Loc) : n.get? (l ++ l') = (n.get? l).bind (·.get? l') := by
  induction l generalizing n with
  | nil => simp
  | cons x l ih =>
    rw [List.cons_append, get?_cons, get?_cons]
    cases n.child? x with
    | none => rfl
    | some c => exact ih c

theorem child?_of_not_dir {n : Node} (h : n.isDir = false) (x : Bytes) : n.child? x = none := by
  cases n <;> simp_all [child?, entries, isDir]

theorem isDir_of_child? {n c : Node} {x : Bytes} (h : n.child? x = some c) : n.isDir = true := by
  cases hn : n.isDir
  · rw [child?_of_not_dir hn] at h
    cases h
  · rfl

theorem isDir_iff {n : Node} : n.isDir = true ↔ ∃ m o es, n = .dir m o es := by
  cases n <;> simp [isDir]

@[simp] theorem child?_dir (m : Nat) (o : Owner) (es : List (Bytes × Node)) (x : Bytes) :
    (Node.dir m o es).child? x = es.lookup x := rfl

theorem lookup_cons_ne {α : Type} {k y : Bytes} (v : α) (es : List (Bytes × α)) (h : y ≠ k) :
    ((k, v) :: es).lookup y = es.lookup y := by
  simp [List.lookup_cons, beq_eq_false_iff_ne.mpr h]

/-- Looking a name up among entries of which those named `x` were changed by `g`. -/
theorem lookup_map_update (es : List (Bytes × Node)) (x y : Bytes) (g : Node → Node) :
    (es.map fun e => if e.1 == x then (e.1, g e.2) else e).lookup y =
      if y = x then (es.lookup x).map g else es.lookup y := by
  induction es with
  | nil => by_cases h : y = x <;> simp [h]
  | cons e es ih =>
    obtain ⟨k, v⟩ := e
    by_cases hy : y = k
    · subst hy
      by_cases hx : y = x <;> simp [hx]
    · have hmap : (if ((k, v).1 == x) = true then ((k, v).1, g (k, v).2) else (k, v)) =
          (k, if k = x then g v else v) := by
        by_cases hk : k = x <;> simp [hk]
      rw [List.map_cons, hmap, lookup_cons_ne _ _ hy, ih]
      by_cases hx : y = x
      · subst hx
        rw [if_pos rfl, if_pos rfl, lookup_cons_ne _ _ hy]
      · rw [if_neg hx, if_neg hx, lookup_cons_ne _ _ hy]

theorem lookup_filter_ne (es : List (Bytes × Node)) (x y : Bytes) :
    (es.filter (·.1 != x)).lookup y = if y = x then none else es.lookup y := by
  induction es with
  | nil => simp
  | cons e es ih =>
    obtain ⟨k, v⟩ := e
    by_cases hk : k = x
    · subst hk
      rw [List.filter_cons_of_neg (by simp), ih]
      by_cases hy : y = k
      · rw [if_pos hy, if_pos hy]
      · rw [if_neg hy, if_neg hy, lookup_cons_ne _ _ hy]
    · rw [List.filter_cons_of_pos (by simpa using hk)]
      by_cases hy : y = k
      · subst hy
        simp [hk]
      · rw [lookup_cons_ne _ _ hy, ih, lookup_cons_ne _ _ hy]

/-- A change below the name `x` leaves every other entry as it was. -/
theorem child?_modifyAt_cons (n : Node) (x : Bytes) (loc : Loc) (f : Node → Node) (y : Bytes) :
    (n.modifyAt (x :: loc) f).child? y =
      if y = x then (n.child? x).map (·.modifyAt loc f) else n.child? y := by
  cases n with
  | dir m o es => exact lookup_map_update es x y (·.modifyAt loc f)
  | _ => by_cases h : y = x <;> simp [modifyAt, child?, entries, h]

theorem child?_erase (n : Node) (x y : Bytes) :
    (n.erase x).child? y = if y = x then none else n.child? y := by
  cases n with
  | dir m o es => exact lookup_filter_ne es x y
  | _ => by_cases h : y = x <;> simp [erase, child?, entries, h]

/-- **The way to a change.** A location on the way to a change holds the node that was there,
changed below it. -/
theorem get?_modifyAt_prefix (n : Node) (l rest : Loc) (f : Node → Node) :
    (n.modifyAt (l ++ rest) f).get? l = (n.get? l).map (·.modifyAt rest f) := by
  induction l generalizing n with
  | nil => rfl
  | cons x l ih =>
    rw [List.cons_append, get?_cons, get?_cons, child?_modifyAt_cons, if_pos rfl]
    cases n.child? x with
    | none => rfl
    | some c => exact ih c

theorem get?_modifyAt_self (n : Node) (l : Loc) (f : Node → Node) :
    (n.modifyAt l f).get? l = (n.get? l).map f := by
  simpa [modifyAt] using get?_modifyAt_prefix n l [] f

theorem get?_snoc {n d : Node} {l : Loc} (hd : n.get? l = some d) (x : Bytes) :
    n.get? (l ++ [x]) = d.child? x := by
  rw [get?_append, hd, Option.bind_some, get?_cons]
  cases d.child? x <;> rfl

/-- In a directory that lists each name once, a listed entry is the one its name finds. -/
theorem lookup_of_mem {es : List (Bytes × Node)} {x : Bytes} {c : Node}
    (hnd : (es.map (·.1)).Nodup) (h : (x, c) ∈ es) : es.lookup x = some c := by
  induction es with
  | nil => cases h
  | cons e es ih =>
    obtain ⟨y, cy⟩ := e
    rw [List.map_cons, List.nodup_cons] at hnd
    rcases List.mem_cons.mp h with he | he
    · obtain ⟨rfl, rfl⟩ := Prod.mk.inj he
      exact List.lookup_cons_self
    · have hxy : x ≠ y := by
        rintro rfl
        exact hnd.1 (List.mem_map_of_mem (f := (·.1)) he)
      rw [lookup_cons_ne _ _ hxy]
      exact ih hnd.2 he

theorem modifyAt_id (n : Node) (l : Loc) : n.modifyAt l id = n := by
  induction l generalizing n with
  | nil => rfl
  | cons x l ih =>
    cases n with
    | dir m o es => simp [modifyAt, ih]
    | _ => rfl

theorem modifyAt_modifyAt (n : Node) (l : Loc) (f g : Node → Node) :
    (n.modifyAt l f).modifyAt l g = n.modifyAt l (g ∘ f) := by
  induction l generalizing n with
  | nil => rfl
  | cons x l ih =>
    cases n with
    | dir m o es =>
      simp only [modifyAt, List.map_map, dir.injEq, true_and]
      refine List.map_congr_left fun e _ => ?_
      by_cases he : e.1 = x
      · simp [he, ih]
      · simp [he]
    | _ => rfl

/-- A change at a location below `l` is a change at `l`. -/
theorem modifyAt_append (n : Node) (l r : Loc) (f : Node → Node) :
    n.modifyAt (l ++ r) f = n.modifyAt l (·.modifyAt r f) := by
  induction l generalizing n with
  | nil => rfl
  | cons x l ih =>
    cases n with
    | dir m o es =>
      simp only [List.cons_append, modifyAt, dir.injEq, true_and]
      refine List.map_congr_left fun e _ => ?_
      by_cases he : e.1 = x
      · simp [he, ih]
      · simp [he]
    | _ => rfl

/-- Dropping an entry drops whatever was changed below it. -/
theorem erase_modifyAt_cons (n : Node) (x : Bytes) (r : Loc) (f : Node → Node) :
    (n.modifyAt (x :: r) f).erase x = n.erase x := by
  cases n with
  | dir m o es =>
    simp only [modifyAt, erase, dir.injEq, true_and]
    induction es with
    | nil => rfl
    | cons e es ih =>
      rw [List.map_cons, List.filter_cons, List.filter_cons, ih]
      by_cases he : e.1 = x
      · simp [he]
      · simp [he]
  | _ => rfl

end Node

/-! ## Growing trees -/

namespace HashOrder

theorem lookup_insert_self {α : Type} (name : Bytes) (x : α) (es : List (Bytes × α))
    (h : es.lookup name = none) : (insert name x es).lookup name = some x := by
  induction es with
  | nil => simp [insert]
  | cons e es ih =>
    obtain ⟨k, v⟩ := e
    have hk : (name == k) = false := by
      simp only [List.lookup_cons] at h
      split at h <;> simp_all
    have hes : es.lookup name = none := by simpa [List.lookup_cons, hk] using h
    unfold insert
    split <;> simp [List.lookup_cons, hk, ih hes]

theorem lookup_insert_ne {α : Type} {name y : Bytes} (x : α) (es : List (Bytes × α))
    (h : y ≠ name) : (insert name x es).lookup y = es.lookup y := by
  have hy : (y == name) = false := by simpa using h
  induction es with
  | nil => simp [insert, List.lookup_cons, hy]
  | cons e es ih =>
    obtain ⟨k, v⟩ := e
    unfold insert
    split
    · rw [Node.lookup_cons_ne _ _ h]
    · by_cases hk : y = k
      · subst hk
        simp
      · rw [Node.lookup_cons_ne _ _ hk, Node.lookup_cons_ne _ _ hk, ih]

end HashOrder

/-- Two nodes of the same kind and attributes, whatever a directory holds. -/
def Node.Shape : Node → Node → Prop
  | .dir m o _, .dir m' o' _ => m = m' ∧ o = o'
  | n, n' => n = n'

namespace Node.Shape

theorem refl (n : Node) : n.Shape n := by
  cases n <;> simp [Node.Shape]

theorem trans {a b c : Node} (h₁ : a.Shape b) (h₂ : b.Shape c) : a.Shape c := by
  cases a <;> cases b <;> cases c <;> simp_all [Node.Shape]

theorem symm {a b : Node} (h : a.Shape b) : b.Shape a := by
  cases a <;> cases b <;> simp_all [Node.Shape]

theorem isDir {n n' : Node} (h : n.Shape n') : n'.isDir = n.isDir := by
  cases n <;> cases n' <;> simp_all [Node.Shape, Node.isDir]

theorem of_not_dir {n n' : Node} (h : n.Shape n') (hn : n.isDir = false) : n' = n := by
  cases n <;> cases n' <;> simp_all [Node.Shape, Node.isDir]

theorem of_dir {m : Nat} {o : Owner} {es : List (Bytes × Node)} {n' : Node}
    (h : (Node.dir m o es).Shape n') : ∃ es', n' = .dir m o es' := by
  cases n' <;> simp_all [Node.Shape]

/-- A change strictly below a node leaves its kind and attributes. -/
theorem modifyAt_cons (n : Node) (x : Bytes) (loc : Loc) (f : Node → Node) :
    n.Shape (n.modifyAt (x :: loc) f) := by
  cases n <;> simp [Node.modifyAt, Node.Shape]

theorem insert (n : Node) (x : Bytes) (c : Node) : n.Shape (Node.insert x c n) := by
  cases n <;> simp [Node.insert, Node.Shape]

theorem erase (n : Node) (x : Bytes) : (n.erase x).Shape n := by
  cases n <;> simp [Node.erase, Node.Shape]

end Node.Shape

namespace Node

/-- **Outside an erased entry.** Erasing the entry `c` of the directory at `l` leaves every
location that does not go through it with a node of the same shape. -/
theorem get?_modifyAt_erase_of_not_prefix {n x : Node} {l b : Loc} {c : Bytes}
    (hb : ¬ l ++ [c] <+: b) (h : n.get? b = some x) :
    ∃ x', (n.modifyAt l (erase c)).get? b = some x' ∧ x.Shape x' := by
  induction l generalizing n b with
  | nil =>
    cases b with
    | nil =>
      simp only [get?_nil, Option.some.injEq] at h
      subst h
      exact ⟨_, rfl, (Shape.erase _ c).symm⟩
    | cons y t =>
      have hyc : y ≠ c := by
        rintro rfl
        exact hb (by simp)
      refine ⟨x, ?_, .refl x⟩
      rw [modifyAt, get?_cons, child?_erase, if_neg hyc, ← get?_cons]
      exact h
  | cons z l ih =>
    cases b with
    | nil =>
      simp only [get?_nil, Option.some.injEq] at h
      subst h
      exact ⟨_, rfl, .modifyAt_cons _ z l _⟩
    | cons y t =>
      rw [get?_cons] at h ⊢
      rw [child?_modifyAt_cons]
      by_cases hyz : y = z
      · subst hyz
        rw [if_pos rfl]
        cases hc : n.child? y with
        | none => simp [hc] at h
        | some cy =>
          rw [hc, Option.bind_some] at h
          exact ih (fun hp => hb (by simpa using hp)) h
      · rw [if_neg hyz]
        exact ⟨x, h, .refl x⟩

/-- `n'` holds every node of `n`, at the same location and of the same shape. -/
def Grows (n n' : Node) : Prop :=
  ∀ l x, n.get? l = some x → ∃ x', n'.get? l = some x' ∧ x.Shape x'

namespace Grows

theorem refl (n : Node) : n.Grows n := fun _ x hx => ⟨x, hx, .refl x⟩

theorem trans {a b c : Node} (h₁ : a.Grows b) (h₂ : b.Grows c) : a.Grows c := by
  intro l x hx
  obtain ⟨y, hy, hxy⟩ := h₁ l x hx
  obtain ⟨z, hz, hyz⟩ := h₂ l y hy
  exact ⟨z, hz, hxy.trans hyz⟩

theorem shape {n n' : Node} (h : n.Grows n') : n.Shape n' := by
  obtain ⟨x', hx', hs⟩ := h [] n rfl
  cases hx'
  exact hs

/-- **Growing at a location.** A change that makes the node at `loc` grow makes the tree grow:
the directories on the way only have one entry changed, and nothing else moves. -/
theorem modifyAt {n : Node} {loc : Loc} {f : Node → Node}
    (h : ∀ x, n.get? loc = some x → x.Grows (f x)) : n.Grows (n.modifyAt loc f) := by
  induction loc generalizing n with
  | nil => exact h n rfl
  | cons a loc ih =>
    intro l y hy
    cases l with
    | nil =>
      simp only [get?_nil, Option.some.injEq] at hy
      subst hy
      exact ⟨_, rfl, .modifyAt_cons _ a loc f⟩
    | cons b l =>
      rw [get?_cons] at hy ⊢
      rw [child?_modifyAt_cons]
      by_cases hb : b = a
      · subst hb
        rw [if_pos rfl]
        cases hc : n.child? b with
        | none => simp [hc] at hy
        | some c =>
          simp only [hc, Option.bind_some, Option.map_some] at hy ⊢
          refine ih (fun x hx => h x ?_) l y hy
          rw [get?_cons, hc]
          exact hx
      · rw [if_neg hb]
        exact ⟨y, hy, .refl y⟩

/-- A new entry under a name the directory lacks makes it grow. -/
theorem insert {n : Node} {x : Bytes} (c : Node) (hx : n.child? x = none) :
    n.Grows (Node.insert x c n) := by
  intro l y hy
  cases l with
  | nil =>
    simp only [get?_nil, Option.some.injEq] at hy
    subst hy
    exact ⟨_, rfl, .insert _ x c⟩
  | cons b l =>
    cases n with
    | dir m o es =>
      have hb : b ≠ x := by
        rintro rfl
        simp [get?_cons, hx] at hy
      refine ⟨y, ?_, .refl y⟩
      rw [get?_cons] at hy ⊢
      simpa [Node.insert, HashOrder.lookup_insert_ne c es hb] using hy
    | _ => exact ⟨y, hy, .refl y⟩

theorem of_erase (n : Node) (x : Bytes) : (n.erase x).Grows n := by
  intro l y hy
  cases l with
  | nil =>
    simp only [get?_nil, Option.some.injEq] at hy
    subst hy
    exact ⟨n, rfl, .erase n x⟩
  | cons b l =>
    refine ⟨y, ?_, .refl y⟩
    rw [get?_cons, child?_erase] at hy
    rw [get?_cons]
    by_cases hb : b = x
    · simp [hb] at hy
    · simpa [hb] using hy

/-- Changes at one location that make nodes grow make trees grow. -/
theorem modifyAt_congr {n : Node} {loc : Loc} {f g : Node → Node} (h : ∀ x, (f x).Grows (g x)) :
    (n.modifyAt loc f).Grows (n.modifyAt loc g) := by
  induction loc generalizing n with
  | nil => exact h n
  | cons a loc ih =>
    intro l y hy
    cases l with
    | nil =>
      simp only [get?_nil, Option.some.injEq] at hy
      subst hy
      exact ⟨_, rfl, (Shape.modifyAt_cons _ a loc f).symm.trans (.modifyAt_cons _ a loc g)⟩
    | cons b l =>
      rw [get?_cons, child?_modifyAt_cons] at hy ⊢
      by_cases hb : b = a
      · subst hb
        rw [if_pos rfl] at hy ⊢
        cases hc : n.child? b with
        | none => simp [hc] at hy
        | some c =>
          simp only [hc, Option.map_some, Option.bind_some] at hy ⊢
          exact ih l y hy
      · rw [if_neg hb] at hy ⊢
        exact ⟨y, hy, .refl y⟩

/-- Dropping an entry anywhere makes a tree smaller. -/
theorem erase_at (n : Node) (l : Loc) (x : Bytes) : (n.modifyAt l (erase x)).Grows n := by
  have h := @modifyAt_congr n l (erase x) id (fun y => of_erase y x)
  rwa [modifyAt_id] at h

end Grows

theorem child?_insert_self {n : Node} {x : Bytes} (c : Node) (hd : n.isDir = true)
    (hx : n.child? x = none) : (Node.insert x c n).child? x = some c := by
  obtain ⟨m, o, es, rfl⟩ := isDir_iff.mp hd
  exact HashOrder.lookup_insert_self x c es hx

end Node

end DirTree
