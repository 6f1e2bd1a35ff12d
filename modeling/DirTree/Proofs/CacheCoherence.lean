import DirTree.Tree.Mkdir
import DirTree.Tree.Remove

/-!
# What a handle remembers

A handle is *coherent* with a world when the kind it remembers, if any, is what `lstat` finds at
its path there. Classifying, asking whether something exists, forgetting and copying keep a
coherent handle coherent, and so do `mkdir` and `remove` on every way out but one: a recursive
call whose level below fails returns that error without forgetting, though the levels below may
have changed what the path names. There the handle still remembers what it found first, nothing
(`mkdir`) or a directory (`remove`):

    (op.step h w).handle.path = h.path
    h.Coherent w → op.stale (op.step h w).result = false →
      (op.step h w).handle.Coherent (op.step h w).world

A run of operations keeps the path, and ends coherent when no step went stale
(`runOps_coherent`).
-/

namespace DirTree

namespace Handle

variable {h : Handle} {w : World}

/-- The kind a handle remembers, if any, is what `lstat` finds at its path in `w`. -/
def Coherent (h : Handle) (w : World) : Prop := ∀ k, h.cached = some k → look w h.path = .ok k

theorem coherent_new (p : Path) (w : World) : (new p).Coherent w := fun _ hk => by
  cases hk

theorem coherent_invalidate (h : Handle) (w : World) : h.invalidate.Coherent w := fun _ hk => by
  cases hk

theorem coherent_remember (h : Handle) {k : Kind} (hl : look w h.path = .ok k) :
    ({ h with cached := some k } : Handle).Coherent w := fun _ hk => by
  cases hk
  exact hl

/-- A coherent handle classifies what `lstat` finds, remembers it, and is left as it was when
looking fails. -/
theorem classify_eq (hc : h.Coherent w) :
    h.classify w = match look w h.path with
      | .ok k => (.ok k, { h with cached := some k })
      | .error e => (.error e, h) := by
  unfold classify
  cases hk : h.cached with
  | none => rfl
  | some k =>
    rw [hc k hk]
    obtain ⟨p, c⟩ := h
    simp_all

theorem classify_coherent (hc : h.Coherent w) : (h.classify w).2.Coherent w := by
  rw [classify_eq hc]
  cases hl : look w h.path with
  | ok k => exact coherent_remember h hl
  | error e => exact hc

theorem classify_error_forgets {e : TreeError} (he : (h.classify w).1 = .error e) :
    (h.classify w).2.cached = none := by
  obtain ⟨hk, hl⟩ := classify_error he
  simp [classify, hk, hl]

theorem classify_path (h : Handle) (w : World) : (h.classify w).2.path = h.path := by
  unfold classify
  cases h.cached with
  | some k => rfl
  | none => cases look w h.path <;> rfl

theorem mkdir_path (h : Handle) (mode : Mode) (flags : Flags) (w : World) :
    (h.mkdir mode flags w).handle.path = h.path := by
  rw [mkdir]
  rcases hcl : h.classify w with ⟨r, h1⟩
  have hp : h1.path = h.path := by rw [← classify_path h w, hcl]
  dsimp only
  split <;> (repeat' split) <;> exact hp

theorem removeStep_path (descend : Option (Handle → World → Done Unit)) (h : Handle)
    (flags : Flags) (w : World) : (removeStep descend h flags w).handle.path = h.path := by
  rw [removeStep]
  rcases hcl : h.classify w with ⟨r, h1⟩
  have hp : h1.path = h.path := by rw [← classify_path h w, hcl]
  dsimp only
  split <;> (repeat' split) <;> exact hp

theorem removeWith_path (fuel : Nat) (h : Handle) (flags : Flags) (w : World) :
    (h.removeWith fuel flags w).handle.path = h.path := by
  cases fuel with
  | zero => exact removeStep_path none h flags w
  | succ fuel => exact removeStep_path _ h flags w

theorem remove_path (h : Handle) (flags : Flags) (w : World) :
    (h.remove flags w).handle.path = h.path :=
  removeWith_path _ h flags w

/-- **`mkdir` keeps the handle coherent**, except where its directory part failed to be made: the
handle then still remembers that nothing was there. -/
theorem mkdir_coherent (hc : h.Coherent w) (mode : Mode) (flags : Flags) :
    (h.mkdir mode flags w).handle.Coherent (h.mkdir mode flags w).world ∨
      flags.recursive = true ∧ (∃ e, (h.mkdir mode flags w).result = .error e) ∧
        (h.mkdir mode flags w).handle.cached = some .missing := by
  rw [mkdir, classify_eq hc]
  cases hl : look w h.path with
  | error e => exact .inl hc
  | ok k =>
    have hk := coherent_remember h hl
    cases k with
    | missing =>
      dsimp only
      split
      · -- the directory part failed: only a recursive call makes it
        rename_i e w' hb
        split at hb
        · exact .inr ⟨by simp_all, ⟨e, rfl⟩, rfl⟩
        · cases hb
      · split <;> exact .inl (coherent_invalidate _ _)
    | directory =>
      dsimp only
      split <;> exact .inl hk
    | symlink =>
      dsimp only
      split
      · split <;> exact .inl hk
      · exact .inl hk
    | regular | unknown => exact .inl hk

theorem emptyWith_of_not_recursive (descend : Option (Handle → World → Done Unit))
    (dir : Handle) {flags : Flags} (hr : flags.recursive = false) (w : World) :
    emptyWith descend dir flags w = ⟨.ok (), (), w⟩ := by
  cases descend <;> simp [emptyWith, hr]

/-- **One level of `remove` keeps the handle coherent**, except where emptying the directory
failed: the handle then still remembers a directory. -/
theorem removeStep_coherent (descend : Option (Handle → World → Done Unit)) (hc : h.Coherent w)
    (flags : Flags) :
    (removeStep descend h flags w).handle.Coherent (removeStep descend h flags w).world ∨
      flags.recursive = true ∧ (∃ e, (removeStep descend h flags w).result = .error e) ∧
        (removeStep descend h flags w).handle.cached = some .directory := by
  rw [removeStep, classify_eq hc]
  cases hl : look w h.path with
  | error e => exact .inl hc
  | ok k =>
    have hk := coherent_remember h hl
    cases k with
    | missing =>
      dsimp only
      split <;> exact .inl hk
    | directory =>
      dsimp only
      split
      · -- emptying failed: only a recursive removal empties
        rename_i e he
        cases hr : flags.recursive
        · rw [emptyWith_of_not_recursive _ _ hr] at he
          cases he
        · exact .inr ⟨rfl, ⟨e, rfl⟩, rfl⟩
      · split <;> exact .inl (coherent_invalidate _ _)
    | symlink | regular | unknown =>
      dsimp only
      split <;> exact .inl (coherent_invalidate _ _)

theorem remove_coherent (hc : h.Coherent w) (flags : Flags) :
    (h.remove flags w).handle.Coherent (h.remove flags w).world ∨
      flags.recursive = true ∧ (∃ e, (h.remove flags w).result = .error e) ∧
        (h.remove flags w).handle.cached = some .directory := by
  unfold remove
  cases removalFuel w with
  | zero => exact removeStep_coherent none hc flags
  | succ fuel => exact removeStep_coherent _ hc flags

/-! ## Runs of operations -/

/-- An operation on a handle: classifying it, asking whether something is there, forgetting
what it remembers, copying it, making a directory and removing an entry. -/
inductive Op where
  | classify
  | exists?
  | invalidate
  | clone
  | mkdir (mode : Mode) (flags : Flags)
  | remove (flags : Flags)

namespace Op

/-- What an operation leaves: whether it failed, the handle, and the world. -/
def step : Op → Handle → World → Done Unit
  | .classify, h, w => ⟨(h.classify w).1.map fun _ => (), (h.classify w).2, w⟩
  | .exists?, h, w => ⟨(h.exists? w).1.map fun _ => (), (h.exists? w).2, w⟩
  | .invalidate, h, w => ⟨.ok (), h.invalidate, w⟩
  | .clone, h, w => ⟨.ok (), h, w⟩
  | .mkdir mode flags, h, w => h.mkdir mode flags w
  | .remove flags, h, w => h.remove flags w

/-- Whether a step may have left the handle remembering what is no longer there: a recursive
`mkdir` or `remove` that failed. -/
def stale : Op → Except TreeError Unit → Bool
  | .mkdir _ flags, .error _ => flags.recursive
  | .remove flags, .error _ => flags.recursive
  | _, _ => false

theorem exists_handle (h : Handle) (w : World) : (h.exists? w).2 = (h.classify w).2 := rfl

theorem step_path (op : Op) (h : Handle) (w : World) : (op.step h w).handle.path = h.path := by
  cases op with
  | classify => exact classify_path h w
  | exists? => exact classify_path h w
  | invalidate | clone => rfl
  | mkdir mode flags => exact mkdir_path h mode flags w
  | remove flags => exact remove_path h flags w

/-- **One step.** Every operation keeps a coherent handle coherent, unless it went stale. -/
theorem step_coherent (op : Op) (hc : h.Coherent w) (hs : op.stale (op.step h w).result = false) :
    (op.step h w).handle.Coherent (op.step h w).world := by
  cases op with
  | classify => exact classify_coherent hc
  | exists? => exact classify_coherent hc
  | invalidate => exact coherent_invalidate h w
  | clone => exact hc
  | mkdir mode flags =>
    rcases mkdir_coherent hc mode flags with hco | ⟨hr, ⟨e, he⟩, -⟩
    · exact hco
    · simp [step, stale, he, hr] at hs
  | remove flags =>
    rcases remove_coherent hc flags with hco | ⟨hr, ⟨e, he⟩, -⟩
    · exact hco
    · simp [step, stale, he, hr] at hs

end Op

/-- Runs operations one after the other on a handle: the handle and the world they leave, and
whether no step went stale. -/
def runOps : List Op → Handle → World → Handle × World × Bool
  | [], h, w => (h, w, true)
  | op :: ops, h, w =>
    let d := op.step h w
    let r := runOps ops d.handle d.world
    (r.1, r.2.1, !op.stale d.result && r.2.2)

theorem runOps_path (ops : List Op) (h : Handle) (w : World) :
    (runOps ops h w).1.path = h.path := by
  induction ops generalizing h w with
  | nil => rfl
  | cons op ops ih => exact (ih _ _).trans (op.step_path h w)

/-- **A handle remembers only what is there.** Along any run of operations from a coherent
handle, the handle's path never changes, and when no recursive `mkdir` or `remove` failed on
the way, the kind it remembers, if any, is what `lstat` finds at its path at the end. -/
theorem runOps_coherent (ops : List Op) (hc : h.Coherent w) :
    (runOps ops h w).1.path = h.path ∧
      ((runOps ops h w).2.2 = true → (runOps ops h w).1.Coherent (runOps ops h w).2.1) := by
  refine ⟨runOps_path ops h w, ?_⟩
  -- a clean run is a clean step followed by a clean run
  induction ops generalizing h w with
  | nil => exact fun _ => hc
  | cons op ops ih =>
    intro hclean
    simp only [runOps, Bool.and_eq_true, Bool.not_eq_true'] at hclean
    exact ih (op.step_coherent hc hclean.1) hclean.2

end Handle

end DirTree
