import DirTree.Walk

/-!
# Making directories

`mkdir` classifies its path first. Nothing there: the directory is made, after its directory part
when the flags are recursive (made tolerantly, outermost first). A directory, or a link to one,
is fine when the flags are permissive. Anything else already exists:

    classify = missing                      →  [mkdir parent, tolerant] ; mkdir(2) path mode
    classify = directory ∧ permissive       →  ok
    classify = symlink ∧ permissive ∧ stat is a directory  →  ok
    otherwise                               →  AlreadyExists "mkdir" path

The handle remembers its classification when it stops early, and forgets it once the directory
has been asked for. Nothing that was made is undone when a later step fails.
-/

namespace DirTree

namespace Handle

/-! ## Algorithm -/

/-- Makes the directory at the handle's path with the given mode. -/
def mkdir (h : Handle) (mode : Mode) (flags : Flags) (w : World) : Done Unit :=
  let parent := h.path.dirname
  let (r, h1) := h.classify w
  let taken : Done Unit := ⟨.error (.alreadyExists "mkdir" h.path), h1, w⟩
  match r with
  | .error e => ⟨.error e, h1, w⟩
  | .ok .directory => if flags.permissive then ⟨.ok (), h1, w⟩ else taken
  | .ok .symlink =>
    if flags.permissive then
      match h.linksToDir w with
      | .error e => ⟨.error e, h1, w⟩
      | .ok true => ⟨.ok (), h1, w⟩
      | .ok false => taken
    else taken
  | .ok .missing =>
    let before : Except TreeError Unit × World :=
      if _hp : flags.recursive && !parent.isEmpty then
        let d := (Handle.new parent).mkdir mode (flags.withPermissive true) w
        (d.result, d.world)
      else (.ok (), w)
    match before with
    | (.error e, w') => ⟨.error e, h1, w'⟩
    | (.ok (), w') =>
      match w'.mkdir h.path.bytes mode.bits with
      | .ok w'' => ⟨.ok (), h1.invalidate, w''⟩
      | .error e => ⟨.error (.system "mkdir" h.path (.ofErrno e)), h1.invalidate, w'⟩
  | .ok _ => taken
termination_by h.path.len
decreasing_by
  simp only [Bool.and_eq_true, Bool.not_eq_true'] at _hp
  exact Path.dirname_len_lt h.path _hp.2

/-- Makes the directory at a path, from a fresh handle. -/
def mkdirTree (p : Path) (mode : Mode) (flags : Flags) (w : World) : Except TreeError Unit × World :=
  let d := (Handle.new p).mkdir mode flags w
  (d.result, d.world)

end Handle

end DirTree
