import DirTree.Error

/-!
# Tree errors as I/O errors

A tree error becomes an I/O error in one of two ways: a failed system call hands over its own
error, and any other failure is wrapped as a new error of its kind whose text is the tree error's
message. Either way a caller who only looks at the I/O error sees the same kind and the same OS
error number as the tree error reports:

    (system op p src).toIo = src
    e.toIo = custom e.kind e.message              (e no failed call)
    e.toIo.kind = e.kind        e.toIo.rawCode = e.rawCode
-/

namespace DirTree

namespace TreeError

theorem toIo_system (op : String) (p : Path) (src : IoError) :
    (TreeError.system op p src).toIo = src := rfl

/-- A failure that is no failed call is wrapped with its kind and message. -/
theorem toIo_of_not_system {e : TreeError} (h : ∀ op p src, e ≠ .system op p src) :
    e.toIo = .custom e.kind e.message := by
  cases e with
  | system op p src => exact absurd rfl (h op p src)
  | alreadyExists | notFound | visitorAborted => rfl

/-- **Converting keeps what the error says.** The I/O error has the tree error's kind and OS
error number. A failed call converts to its own error, and any other failure to an error whose
text is the tree error's message and which carries no OS error number. -/
theorem toIo_keeps_classification (e : TreeError) :
    e.toIo.kind = e.kind ∧ e.toIo.rawCode = e.rawCode ∧
      (∀ op p src, e = .system op p src → e.toIo = src ∧ e.toIo.display = src.display) ∧
      ((∀ op p src, e ≠ .system op p src) →
        e.toIo.display = e.message ∧ e.toIo.rawCode = none) := by
  refine ⟨toIo_kind e, toIo_rawCode e, ?_, fun h => ?_⟩
  · rintro op p src rfl
    exact ⟨rfl, rfl⟩
  · rw [toIo_of_not_system h]
    exact ⟨rfl, rfl⟩

/-- A `mkdir` that found `x` already there, and an `rmdir` of `d` that failed with error 39. -/
theorem toIo_keeps_classification_of_mkdir_and_rmdir :
    (∀ op p src, TreeError.alreadyExists "mkdir" ⟨[120]⟩ ≠ .system op p src) ∧
      (TreeError.alreadyExists "mkdir" ⟨[120]⟩).toIo.display = "mkdir: already exists: x" ∧
      (TreeError.alreadyExists "mkdir" ⟨[120]⟩).toIo.rawCode = none ∧
      (TreeError.system "rmdir" ⟨[100]⟩ (.os 39)).toIo = .os 39 :=
  have hne : ∀ op p src, TreeError.alreadyExists "mkdir" ⟨[120]⟩ ≠ .system op p src :=
    fun _ _ _ h => nomatch h
  have hsys := (toIo_keeps_classification (.system "rmdir" ⟨[100]⟩ (.os 39))).2.2.1 _ _ _ rfl
  have hex := (toIo_keeps_classification (.alreadyExists "mkdir" ⟨[120]⟩)).2.2.2 hne
  ⟨hne, by rw [hex.1]; decide, hex.2, hsys.1⟩

end TreeError

end DirTree
