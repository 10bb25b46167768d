import PerlJava.Compile.Report
import PerlJava.Java.Edit

/-!
# Steps that depend on whether code is optimised

Where code is optimised, a new reference that is read at once gives way to what it refers to. A step
in which that may happen has two versions.
-/

namespace PerlJava.Compile

open Java

/-- Steps that may drop new references. -/
structure Tidying (α : Type) where
  /-- What is done where code is optimised. -/
  on : Plain α
  /-- What is done elsewhere. -/
  off : Plain α

namespace Tidying

variable {α β : Type}

def run (x : Tidying α) : M α := fun s =>
  if s.options.optimizeCode then x.on.run s else x.off.run s

instance : Monad Tidying where
  pure a := ⟨pure a, pure a⟩
  bind x f := {
    on := x.on >>= fun a => (f a).on
    off := x.off >>= fun a => (f a).off }

instance : MonadLift Plain Tidying where
  monadLift x := ⟨x, x⟩

section

variable (x : Tidying α) (f : α → Tidying β) (y : Plain α) (a : α)

@[simp] theorem on_pure : (pure a : Tidying α).on = pure a := rfl

@[simp] theorem off_pure : (pure a : Tidying α).off = pure a := rfl

@[simp] theorem on_bind : (x >>= f).on = x.on >>= fun a => (f a).on := rfl

@[simp] theorem off_bind : (x >>= f).off = x.off >>= fun a => (f a).off := rfl

@[simp] theorem on_lift : (liftM y : Tidying α).on = y := rfl

@[simp] theorem off_lift : (liftM y : Tidying α).off = y := rfl

end

instance (x : Tidying α) : Enacts .tidies x.run where
  ok {s s' a} balanced _ ran := by
    unfold run at ran
    have := x.on.plain
    have := x.off.plain
    split at ran
    · exact .inl (Does.follows balanced ran)
    · exact .inl (Does.follows balanced ran)
  error {s s' stop} balanced _ ran := by
    unfold run at ran
    have := x.on.plain
    have := x.off.plain
    split at ran
    · exact (Does.error_follows balanced ran).imp_right .inl
    · exact (Does.error_follows balanced ran).imp_right .inl
  types _ s := by
    unfold run
    split
    · exact x.on.plain.types nofun s
    · exact x.off.plain.types nofun s
  code _ s := by
    unfold run
    split
    · exact x.on.plain.code rfl s
    · exact x.off.plain.code rfl s
  blind tidies := absurd rfl tidies
  candid s off := by
    have same : (s.aborting true).options.optimizeCode = s.options.optimizeCode := rfl
    unfold run
    rw [same]
    split
    · exact x.on.plain.candid s off
    · exact x.off.plain.candid s off
  detached b s := by
    have same : (s.against b).options.optimizeCode = s.options.optimizeCode := rfl
    unfold run
    rw [same]
    split
    · exact x.on.plain.detached b s
    · exact x.off.plain.detached b s

end Tidying

def State.tidy (s : State) : String → String :=
  if s.options.optimizeCode then Edit.dropFreshRead else id

/-- A step that does one thing with a way to tidy texts does it with that of the state. -/
theorem Tidying.run_eq {α : Type} {x : Tidying α} {y : (String → String) → Plain α}
    (on : x.on = y Edit.dropFreshRead) (off : x.off = y id) (s : State) :
    x.run s = (y s.tidy).run s := by
  unfold run State.tidy
  split
  · rw [on]
  · rw [off]

/-- A text without the new reference that it reads at once, where code is optimised. -/
def tidied (text : String) : Tidying String where
  on := pure (Edit.dropFreshRead text)
  off := pure text

end PerlJava.Compile
