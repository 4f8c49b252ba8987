import KeySteward.Controller.Write
import KeySteward.Resource.Metadata

/-! The finalizer, a mark on an object that keeps it in place until what it stands for is gone. It
is put on before anything else is done for the object, and taken off when nothing is left to do. -/

namespace KeySteward

namespace Finalizer

def name : String := "finalizers.kms.keyops.dev"

/-- Where the mark is among the finalizers of an object. -/
def index? (metadata : Metadata) : Option Nat :=
  (metadata.finalizers.getD []).idxOf? name

/-- Puts the mark on, provided that the finalizers are still the known ones. -/
def attach (metadata : Metadata) : Patch :=
  let path := "/metadata/finalizers"
  match metadata.finalizers.getD [] with
  | [] => .operations [.test path .null, .add path (.ofStrings [name])]
  | known => .operations [.test path (.ofStrings known), .add (path ++ "/-") (.string name)]

/-- Takes the mark off, provided that it is still in its place. -/
def detach (index : Nat) : Patch :=
  let path := "/metadata/finalizers/" ++ toString index
  .operations [.test path (.string name), .remove path]

end Finalizer

/-- What a pass is to do for an object. -/
inductive Stage where
  /-- Put the finalizer on. -/
  | adopt
  /-- Make the remote side what the object says. -/
  | apply
  /-- Take the remote side away, and then the finalizer at its place. -/
  | cleanup (index : Nat)
  /-- Nothing: the object is going away and was never adopted, or is already released. -/
  | leave
  deriving DecidableEq, Repr

def Stage.ofMetadata (metadata : Metadata) : Stage :=
  match Finalizer.index? metadata, metadata.deletionTimestamp with
  | some index, some _ => cleanup index
  | some _, none => apply
  | none, some _ => leave
  | none, none => adopt

end KeySteward
