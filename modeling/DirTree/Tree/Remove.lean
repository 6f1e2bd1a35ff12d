import DirTree.Walk

/-!
# Removing entries

`remove` classifies its path first. Nothing there is fine when the flags are permissive, and is
`NotFound` otherwise. A directory is emptied first when the flags are recursive (each entry
removed with the same flags, in listing order), then removed with `rmdir`; anything else,
symbolic links included, is removed with `unlink`. Links are never followed into:

    classify = missing                 →  ok (permissive) / NotFound "remove" path
    classify = directory               →  [walk: remove each entry] ; rmdir(2) path
    otherwise                          →  unlink(2) path

The first error ends the removal and leaves what was removed removed. The handle remembers its
classification when it stops early, and forgets it once the entry has been asked to go.

A removal goes one directory deeper at each level, so it is given `fuel` levels, at least the
height of the tree below the path; out of fuel it removes a directory without emptying it.
-/

namespace DirTree

namespace Handle

/-! ## Algorithm -/

/-- Empties the directory at a handle before it is removed: when the flags are recursive and a
level below is given (`descend`), each of its entries is removed with it, by a walk. -/
def emptyWith (descend : Option (Handle → World → Done Unit)) (dir : Handle) (flags : Flags)
    (w : World) : Trail Unit :=
  match descend with
  | none => ⟨.ok (), (), w⟩
  | some below =>
    if flags.recursive then
      walk dir (fun child _ _ w => let d := below child w; ⟨⟨d.result, (), d.world⟩, d.handle⟩) () w
    else ⟨.ok (), (), w⟩

/-- One level of a removal: classifies the handle's path and removes what is there, a directory
once it has been emptied. -/
def removeStep (descend : Option (Handle → World → Done Unit)) (h : Handle) (flags : Flags)
    (w : World) : Done Unit :=
  let (r, h1) := h.classify w
  let finish (op : String) (call : Except Errno World) (w' : World) : Done Unit :=
    match call with
    | .ok w'' => ⟨.ok (), h1.invalidate, w''⟩
    | .error e => ⟨.error (.system op h.path (.ofErrno e)), h1.invalidate, w'⟩
  match r with
  | .error e => ⟨.error e, h1, w⟩
  | .ok .missing =>
    if flags.permissive then ⟨.ok (), h1, w⟩
    else ⟨.error (.notFound "remove" h.path), h1, w⟩
  | .ok .directory =>
    let emptied := emptyWith descend h1 flags w
    match emptied.result with
    | .error e => ⟨.error e, h1, emptied.world⟩
    | .ok () => finish "rmdir" (emptied.world.rmdir h.path.bytes) emptied.world
  | .ok _ => finish "unlink" (w.unlink h.path.bytes) w

/-- Removes the entry at the handle's path, descending at most `fuel` directories. -/
def removeWith : Nat → Handle → Flags → World → Done Unit
  | 0, h, flags, w => removeStep none h flags w
  | fuel + 1, h, flags, w => removeStep (some fun child w => removeWith fuel child flags w) h flags w

/-- The fuel that lets a removal reach every directory of the world: its number of nodes. -/
def removalFuel (w : World) : Nat := w.root.size

def remove (h : Handle) (flags : Flags) (w : World) : Done Unit :=
  h.removeWith (removalFuel w) flags w

/-- Removes the entry at a path, from a fresh handle. -/
def removeTree (p : Path) (flags : Flags) (w : World) : Except TreeError Unit × World :=
  let d := (Handle.new p).remove flags w
  (d.result, d.world)

end Handle

end DirTree
