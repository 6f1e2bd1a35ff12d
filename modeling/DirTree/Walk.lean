import DirTree.Handle

/-!
# Walking a directory

A walk lists a directory once and hands each entry to a visitor, in listing order, skipping `.`
and `..`. One child handle is reused for every entry: its path keeps the directory's path as a
prefix, and entering a name cuts the path back to that prefix, appends the name, forgets the
remembered kind and classifies afresh. The first error ends the walk: a listing that cannot be
opened or read on, a child that cannot be classified, or an error of the visitor. What was done
before the error stays done.

    walk dir visit s w = ⟨System "opendir" dir.path, s, w⟩          (opendir fails)
                       = visitAll dir.path visit (slot dir) names s w  (opendir lists names)
    (slot.enter name w).2.file.path = (slot.file.path.truncate slot.baseLen).append name

The listing is taken when the walk starts; the visitor's changes to the directory do not change
which names are visited. A listing is the sequence of items the OS hands over, each a name or a
failure to read on. The visitor's state is kept when the walk fails, so that what it gathered
before the failure is not lost.

The visitor holds the child handle itself, and the walk enters the next name from the handle the
visitor leaves: one that remembers another kind, or one on another path altogether. Cutting back
to the directory's length gives the directory's path again only while the handle's path still
starts with it.

    visitAll dir visit slot (.ok name :: items) s w
      = visitAll dir visit { slot' with file := v.child } items v.state v.world
          where (.ok k, slot') = slot.enter name w and v = visit slot'.file name s w succeeded
-/

namespace DirTree

/-- How a walk, or one visit, ends: with success or an error, the state gathered so far, and the
world after it. -/
structure Trail (σ : Type) where
  result : Except TreeError Unit
  state : σ
  world : World

/-- How one visit ends: as a trail, and with the child handle as the visitor left it. -/
structure Visited (σ : Type) extends Trail σ where
  child : Handle

/-- A visitor: it gets an entry's handle and name, carries a state, may change the world, the
handle or both, and may fail. -/
abbrev Visitor (σ : Type) := Handle → Bytes → σ → World → Visited σ

/-- A directory listing as the OS hands it over: each item a name, or a failure to read on. -/
abbrev Listing := List (Except Errno Bytes)

def isDotEntry (name : Bytes) : Bool := name == Bytes.dot || name == Bytes.dotdot

/-- The child handle a walk reuses for every entry, and the length of the directory's path that
its path starts with. -/
structure ChildSlot where
  file : Handle
  baseLen : Nat

namespace ChildSlot

/-- The slot of a directory: a fresh handle on the directory's own path. -/
def new (dir : Handle) : ChildSlot := ⟨Handle.new dir.path, dir.path.len⟩

/-- Moves the slot to the entry `name`: the path is cut back to the directory's, `name` is
appended, and the child is classified afresh. -/
def enter (slot : ChildSlot) (name : Bytes) (w : World) : Except TreeError Kind × ChildSlot :=
  let file := Handle.invalidate { slot.file with path := (slot.file.path.truncate slot.baseLen).append name }
  let (r, file') := file.classify w
  (r, { slot with file := file' })

end ChildSlot

/-! ## Algorithm -/

/-- Visits the items of a listing of the directory `dir`, in order, through the child slot. -/
def visitAll {σ : Type} (dir : Path) (visit : Visitor σ) :
    ChildSlot → Listing → σ → World → Trail σ
  | _, [], s, w => ⟨.ok (), s, w⟩
  | _, .error e :: _, s, w => ⟨.error (.system "readdir" dir (.ofErrno e)), s, w⟩
  | slot, .ok name :: items, s, w =>
    if isDotEntry name then visitAll dir visit slot items s w
    else
      match slot.enter name w with
      | (.error e, _) => ⟨.error e, s, w⟩
      | (.ok _, slot') =>
        let v := visit slot'.file name s w
        match v.result with
        | .error _ => v.toTrail
        | .ok () => visitAll dir visit { slot' with file := v.child } items v.state v.world

/-- Walks the directory at a handle's path with a visitor, from the state `s`. -/
def walk {σ : Type} (dir : Handle) (visit : Visitor σ) (s : σ) (w : World) : Trail σ :=
  match w.opendir dir.path.bytes with
  | .error e => ⟨.error (.system "opendir" dir.path (.ofErrno e)), s, w⟩
  | .ok names => visitAll dir.path visit (ChildSlot.new dir) (names.map .ok) s w

/-! ## Lemmas -/

theorem visitAll_nil {σ : Type} (dir : Path) (visit : Visitor σ) (slot : ChildSlot) (s : σ)
    (w : World) : visitAll dir visit slot [] s w = ⟨.ok (), s, w⟩ := rfl

end DirTree
