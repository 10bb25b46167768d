import PerlJava.Proofs.Compile.Lockstep

/-!
# Compiling with and without a trace

A parser that traces looks up the state that comes after a reduction before the action of the reduction
has run, and it shows the values on its stack. Neither makes a difference: there always is such a
state, so the compilation goes through the same moments as without a trace, and ends in the same way.
-/

namespace PerlJava.Compile

def Backdrop.untraced (b : Backdrop) : Backdrop :=
  { b with tracing := none, trace := "" }

/-- A state without its trace, and without the switch for one. -/
def State.untraced (s : State) : State :=
  { s with options := { s.options with tracing := none }, trace := "" }

/-- Without its trace, a parser that traces is one that does not. -/
theorem mirror_untraced (tracing : Option Tracing) : Mirror tracing none Backdrop.untraced where
  traces := .inr rfl
  log level text s := by cases tracing <;> rfl
  open_ _ _ _ := rfl

/-- Without its trace, the history of a compilation is that of one that does not trace. -/
theorem history_untraced (p : Parser) (text : String) (limit : Nat) (s : State) :
    history p text limit s.untraced = (history p text limit s).map State.untraced :=
  (mirror_untraced s.options.tracing).history (fun _ => True) (fun _ _ => trivial)
    (fun _ _ _ => nextToken_reframed (fun _ => rfl) rfl) text limit rfl rfl fun _ => trivial

/-- The compilations of a text with and without a trace, whatever is traced and how, go through the
same moments, with the same symbols on the stack of the parser, the same reductions made and the same
states but for the trace. They end in the same way: with the same class or the same fault, and with the
same state, in which the same has been printed. -/
theorem tracing_changes_nothing (p : Parser) (session : Session) (options : Options)
    (name text : String) (tracing : Tracing) (limit : Nat) :
    let off := State.ofFile session { options with tracing := none } name
    let on := State.ofFile session { options with tracing := some tracing } name
    history p text limit off = (history p text limit on).map State.untraced
      ∧ compile p text off = mapState State.untraced (compile p text on) := by
  intro off on
  have same : on.untraced = off := rfl
  refine ⟨same ▸ history_untraced p text limit on, ?_⟩
  rw [compile, ← history_result, ← history_result, ← same, history_untraced]
  rfl

end PerlJava.Compile
