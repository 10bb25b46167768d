/-!
# Faults

The ways in which work ends without a result. Diagnostics about a program are not faults: they are
printed and the work goes on.
-/

namespace PerlJava

/-- Why a piece of work was given up. -/
inductive Fault where
  /-- A value of the wrong kind was met, such as the missing type of an unsupported operation. -/
  | illTyped
  /-- A part was asked of something that has no such part. -/
  | noMember
  /-- An element outside a sequence was asked for. -/
  | outOfRange
  /-- A key without a value was looked up. -/
  | missingKey
  /-- A name was read before it had a value. -/
  | unbound
  /-- A name is not known at all. -/
  | unknownName
  /-- A value of the right kind does not fit. -/
  | badValue
  /-- The template of a replacement is malformed. -/
  | badTemplate
  /-- The work was ended on request, by a first error or by unusable arguments. -/
  | stopped
  /-- An input that something was to be built from is malformed; the text says where, if known. -/
  | malformed (text : Option String)
  /-- A scanner met text that it has no rule for. -/
  | unscannable (text : String)
  /-- A parser cannot be built from its description. -/
  | unbuildable (text : String)
  /-- A rule of a grammar is unusable. -/
  | badGrammar (text : String)
  /-- The conflicts of a grammar cannot be resolved. -/
  | badConflict (text : String)
  /-- A machine is in a state that its tables do not provide for. -/
  | inconsistent
  /-- There is no module of a name. -/
  | noModule
  /-- A file does not exist. -/
  | noFile
  /-- A file was expected where a directory is. -/
  | isDirectory
  /-- A directory was expected where a file is. -/
  | notDirectory
  /-- The number of steps allowed was used up. -/
  | exhausted
deriving Repr, DecidableEq, Inhabited

/-- Work that may be given up is a part of such work with a state. -/
instance {σ : Type} : MonadLift (Except Fault) (EStateM Fault σ) where
  monadLift
    | .ok a => pure a
    | .error e => throw e

end PerlJava
