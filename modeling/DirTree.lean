import DirTree.Bytes
import DirTree.Text.Utf8
import DirTree.Text.Printable
import DirTree.Text.Quote
import DirTree.Path.Basic
import DirTree.Disk.HashOrder
import DirTree.Disk.Node
import DirTree.Os.Errno
import DirTree.Os.ErrorKind
import DirTree.Os.IoError
import DirTree.Kind
import DirTree.Error
import DirTree.Disk.World
import DirTree.Disk.Resolve
import DirTree.Disk.Calls
import DirTree.Path.Absolute
import DirTree.Handle
import DirTree.Walk
import DirTree.Tree.Mkdir
import DirTree.Tree.Remove
import DirTree.Tree.Survey
import DirTree.Session
import DirTree.Demo
import DirTree.Main
import DirTree.Proofs.EntryName
import DirTree.Proofs.Locations
import DirTree.Proofs.Resolution
import DirTree.Proofs.Growth
import DirTree.Proofs.Calls
import DirTree.Proofs.Pruning
import DirTree.Proofs.RemoveTree
import DirTree.Proofs.MkdirFrame
import DirTree.Proofs.MkdirParents
import DirTree.Proofs.Visits
import DirTree.Proofs.PathAlgebra
import DirTree.Proofs.MkdirTolerance
import DirTree.Proofs.CacheCoherence
import DirTree.Proofs.PathComponents
import DirTree.Proofs.IoConversion
import DirTree.Proofs.TreeListing
import DirTree.Proofs.Trimming
import DirTree.Proofs.RecursionDepth
