import PerlJava.CommandLine.Run
import PerlJava.Proofs.Compile.AbortedRun

/-!
# The files that are written

A run comes to one file after the other. For a file that it is done with, it writes a class if and only
if no error was printed about the file; a file with an error, or one that ends the run, leaves the tree
as it is. That rests on the flag for errors: all steps of a compilation are candid, so it is set
exactly if an error is among what was printed.
-/

namespace PerlJava.CommandLine

open Compile

/-! ### Trees -/

namespace FileTree

variable {t t' : FileTree} {path text : String} {l : Location}

/-- A path leads where it did, if all folders are still there. -/
theorem follow_of_folders (kept : ∀ here, t.isFolder here = true → t'.isFolder here = true)
    {here : Location} {rest : List String} (found : t.follow here rest = .ok (some l)) :
    t'.follow here rest = .ok (some l) := by
  induction rest generalizing here with
  | nil => exact found
  | cons part rest ih =>
    rw [follow] at found ⊢
    split at found
    · next folder =>
      rw [if_pos (kept here folder)]
      split at found
      · next up =>
        rw [if_pos up]
        exact ih found
      · next down =>
        rw [if_neg down]
        exact ih found
    · split at found <;> cases found

theorem isFolder_insert {here : Location} (folder : t.isFolder here = true) :
    { t with files := t.files.insert l text }.isFolder here = true := by
  simp only [isFolder, Bool.or_eq_true, List.any_eq_true] at folder ⊢
  obtain known | ⟨file, member, inside⟩ := folder
  · exact .inl known
  · exact .inr ⟨file, OrderedMap.mem_keys_insert.2 (.inr member), inside⟩

theorem isFolder_insert_self (file : t.isFolder l = false) :
    { t with files := t.files.insert l text }.isFolder l = false := by
  simp only [isFolder, Bool.or_eq_false_iff, List.any_eq_false] at file ⊢
  refine ⟨file.1, fun key member => ?_⟩
  obtain rfl | old := OrderedMap.mem_keys_insert.1 member
  · simp
  · exact file.2 key old

theorem write_eq_ok (written : t.write path text = .ok t') :
    ∃ l, t.locate path = .ok (some l) ∧ t.isFolder l = false
      ∧ t' = { t with files := t.files.insert l text } := by
  obtain ⟨place, located, written⟩ := bind_eq_ok.1 written
  split at written
  · cases written
  · next l =>
    split at written
    · cases written
    · next file =>
      cases written
      exact ⟨l, located, by simpa using file, rfl⟩

theorem locate_of_folders (kept : ∀ here, t.isFolder here = true → t'.isFolder here = true)
    (home : t'.home = t.home) (file : t.isFolder l = false) (located : t.locate path = .ok (some l)) :
    t'.locate path = .ok (some l) := by
  unfold locate at located ⊢
  split at located
  · cases located
  · next named =>
    rw [if_neg named]
    obtain ⟨place, followed, located⟩ := bind_eq_ok.1 located
    cases place with
    | none => cases located
    | some place =>
      rw [home, follow_of_folders kept followed]
      change (if _ then _ else _) = _ at located
      change (if _ then _ else _) = _
      split at located
      · split at located <;> cases located
      · next ends =>
        cases located
        have ends : ¬(((path.splitOn "/").getLast?.getD "").isEmpty
            || decide ((path.splitOn "/").getLast?.getD "" = ".")) = true := by
          simpa [file] using ends
        rw [if_neg (by simp [ends])]
        rfl

theorem read_of_write (written : t.write path text = .ok t') : t'.read path = .ok text := by
  obtain ⟨l, located, file, rfl⟩ := write_eq_ok written
  have kept : ∀ here, t.isFolder here = true →
      { t with files := t.files.insert l text }.isFolder here = true := fun _ => isFolder_insert
  rw [read, locate_of_folders kept rfl file located]
  change (if _ then _ else _) = _
  rw [if_neg (by simp [isFolder_insert_self file]), OrderedMap.get?_insert_self]
  rfl

end FileTree

/-! ### One file -/

/-- A file that a run comes to, with what is there by then. -/
structure Visit where
  arguments : Arguments
  isMain : Bool
  session : Session
  path : String
  before : Desk

namespace Visit

def start (v : Visit) : State :=
  .ofFile v.session (v.arguments.options v.isMain) (baseName v.path)

def classPath (v : Visit) (s : State) : String :=
  joinPath (v.arguments.out.getD "") (s.className ++ ".java")

def result (parser : Parser) (v : Visit) : EStateM.Result Fault Desk Session :=
  Desk.world.compileFile parser v.arguments v.isMain v.session v.path v.before

end Visit

def deskOf {α : Type} : EStateM.Result Fault Desk α → Desk
  | .ok _ desk => desk
  | .error _ desk => desk

def Desk.telling (desk : Desk) (log trace : String) : Desk :=
  { desk with printed := desk.printed ++ log, printedError := desk.printedError ++ trace }

/-- What may come of a file. -/
inductive Visited (parser : Parser) (v : Visit) : EStateM.Result Fault Desk Session → Prop where
  | refused {notice : String} :
    Visited parser v (.error .stopped { v.before with printed := v.before.printed ++ notice })
  | unread {e : Fault} : v.before.tree.read v.path = .error e → Visited parser v (.error e v.before)
  | broken {text : String} {stop : Stop} {s : State} : v.before.tree.read v.path = .ok text →
    compile parser (Text.withEvenLineEnds text) v.start = .error stop s →
    Visited parser v (.error stop.toFault (v.before.telling s.log s.trace))
  | spoilt {text : String} {java : Option String} {s : State} :
    v.before.tree.read v.path = .ok text →
    compile parser (Text.withEvenLineEnds text) v.start = .ok java s → s.codeError = true →
    Visited parser v (.ok s.toSession (v.before.telling s.log s.trace))
  | empty {text : String} {s : State} : v.before.tree.read v.path = .ok text →
    compile parser (Text.withEvenLineEnds text) v.start = .ok none s → s.codeError = false →
    Visited parser v (.error .noMember (v.before.telling s.log s.trace))
  | unwritten {text java : String} {s : State} {e : Fault} : v.before.tree.read v.path = .ok text →
    compile parser (Text.withEvenLineEnds text) v.start = .ok (some java) s → s.codeError = false →
    v.before.tree.write (v.classPath s) (Java.indent java) = .error e →
    Visited parser v (.error e (v.before.telling s.log s.trace))
  | written {text java : String} {s : State} {tree : FileTree} :
    v.before.tree.read v.path = .ok text →
    compile parser (Text.withEvenLineEnds text) v.start = .ok (some java) s → s.codeError = false →
    v.before.tree.write (v.classPath s) (Java.indent java) = .ok tree →
    Visited parser v (.ok s.toSession { v.before.telling s.log s.trace with
      tree, written := v.before.written ++ [(v.classPath s, Java.indent java)] })

section World

variable {α β : Type} {desk desk' : Desk}

theorem desk_bind_ok {x : DeskM α} {f : α → DeskM β} {a : α} (run : x desk = .ok a desk') :
    (x >>= f) desk = f a desk' := by
  simp only [bind, EStateM.bind, run]

theorem desk_bind_error {x : DeskM α} {f : α → DeskM β} {e : Fault}
    (run : x desk = .error e desk') : (x >>= f) desk = .error e desk' := by
  simp only [bind, EStateM.bind, run]

/-- A path that cannot be used is refused; else nothing happens. -/
theorem require_cases {mayUse : String → DeskM Bool} {may : Bool} (path : String) (desk : Desk)
    (used : mayUse path desk = .ok may desk) (missing denied : Message) (names : Diagnostic.Names) :
    Desk.world.require mayUse path missing denied names desk = .ok () desk ∨ ∃ notice,
      Desk.world.require mayUse path missing denied names desk
        = .error .stopped { desk with printed := desk.printed ++ notice } := by
  have found : Desk.world.pathExists path desk = .ok (desk.tree.pathExists path) desk := rfl
  unfold World.require
  rw [desk_bind_ok found]
  cases desk.tree.pathExists path with
  | false => exact .inr ⟨_, rfl⟩
  | true =>
    change (mayUse path >>= _) desk = _ ∨ ∃ _, (mayUse path >>= _) desk = _
    rw [desk_bind_ok used]
    cases may with
    | false => exact .inr ⟨_, rfl⟩
    | true => exact .inl rfl

theorem read_cases (path : String) (desk : Desk) :
    (∃ text, desk.tree.read path = .ok text ∧ Desk.world.read path desk = .ok text desk)
      ∨ ∃ e, desk.tree.read path = .error e ∧ Desk.world.read path desk = .error e desk := by
  have same : Desk.world.read path desk = (liftM (desk.tree.read path) : DeskM String) desk := rfl
  rw [same]
  cases desk.tree.read path with
  | ok text => exact .inl ⟨text, rfl, rfl⟩
  | error e => exact .inr ⟨e, rfl, rfl⟩

theorem write_cases (path text : String) (desk : Desk) :
    (∃ tree, desk.tree.write path text = .ok tree ∧ Desk.world.write path text desk
        = .ok () { desk with tree, written := desk.written ++ [(path, text)] })
      ∨ ∃ e, desk.tree.write path text = .error e
        ∧ Desk.world.write path text desk = .error e desk := by
  have same : Desk.world.write path text desk
      = ((liftM (desk.tree.write path text) : DeskM FileTree) >>= fun tree =>
        modify fun d => { d with tree, written := d.written ++ [(path, text)] }) desk := rfl
  rw [same]
  cases desk.tree.write path text with
  | ok tree => exact .inl ⟨tree, rfl, rfl⟩
  | error e => exact .inr ⟨e, rfl, rfl⟩

theorem tell_eq (s : State) (desk : Desk) :
    Desk.world.tell s desk = .ok () (desk.telling s.log s.trace) :=
  rfl

section WriteClass

variable {a : Arguments} {s : State}

theorem writeClass_of_failed {java : Option String} (failed : s.codeError = true) :
    Desk.world.writeClass a java s desk = .ok () desk := by
  unfold World.writeClass
  rw [if_pos failed]
  rfl

theorem writeClass_none (fine : s.codeError = false) :
    Desk.world.writeClass a none s desk = .error .noMember desk := by
  unfold World.writeClass
  rw [if_neg (by simp [fine])]
  rfl

theorem writeClass_some {java : String} (fine : s.codeError = false) :
    Desk.world.writeClass a (some java) s
      = Desk.world.write (joinPath (a.out.getD "") (s.className ++ ".java")) (Java.indent java) := by
  unfold World.writeClass
  rw [if_neg (by simp [fine])]

end WriteClass

end World

/-- What comes of a file is one of the things that may. -/
theorem visited (parser : Parser) (v : Visit) : Visited parser v (v.result parser) := by
  obtain ⟨a, isMain, session, path, desk⟩ := v
  unfold Visit.result World.compileFile
  dsimp only
  have may : Desk.world.isReadable path desk = .ok (desk.tree.isAccessible path) desk := rfl
  obtain ready | ⟨notice, refused⟩ :=
    require_cases path desk may .fileNotFound .fileNotAccess [("file", path)]
  · rw [desk_bind_ok ready]
    obtain ⟨text, found, read⟩ | ⟨e, failed, read⟩ := read_cases path desk
    · rw [desk_bind_ok read]
      cases compiled : compile parser (Text.withEvenLineEnds text)
          (State.ofFile session (a.options isMain) (baseName path)) with
      | error stop s =>
        dsimp only
        rw [desk_bind_ok (tell_eq s desk)]
        exact .broken found compiled
      | ok java s =>
        dsimp only
        rw [desk_bind_ok (tell_eq s desk)]
        cases failed : s.codeError with
        | true =>
          rw [desk_bind_ok (writeClass_of_failed failed)]
          exact .spoilt found compiled failed
        | false =>
          cases java with
          | none =>
            rw [desk_bind_error (writeClass_none failed)]
            exact .empty found compiled failed
          | some java =>
            rw [writeClass_some failed]
            obtain ⟨tree, written, done⟩ | ⟨e, unwritten, done⟩ :=
              write_cases (joinPath (a.out.getD "") (s.className ++ ".java")) (Java.indent java)
                (desk.telling s.log s.trace)
            · rw [desk_bind_ok done]
              exact .written found compiled failed written
            · rw [desk_bind_error done]
              exact .unwritten found compiled failed unwritten
    · rw [desk_bind_error read]
      exact .unread failed
  · rw [desk_bind_error refused]
    exact .refused

/-! ### Runs -/

/-- The first of some files. Only the last can be the main file. -/
def firstVisit (a : Arguments) (session : Session) (path : String) (rest : List String)
    (desk : Desk) : Visit :=
  ⟨a, a.isMain && rest.isEmpty, session, path, desk⟩

/-- The files that are compiled one after the other. -/
def visitsFrom (parser : Parser) (a : Arguments) : Session → List String → Desk → List Visit
  | _, [], _ => []
  | session, path :: rest, desk =>
    let v := firstVisit a session path rest desk
    v :: match v.result parser with
      | .ok session desk => visitsFrom parser a session rest desk
      | .error _ _ => []

/-- The files that a run comes to. -/
def Desk.visits (desk : Desk) (parser : Parser) (arguments : List String) : List Visit :=
  match Arguments.read arguments with
  | .error _ => []
  | .ok a =>
    match Desk.world.checkOut a desk with
    | .ok _ desk => visitsFrom parser a {} a.files desk
    | .error _ _ => []

/-- Nothing has been written between two desks. -/
structure Desk.Untouched (before after : Desk) : Prop where
  written : after.written = before.written
  tree : after.tree = before.tree

/-- One file has been written between two desks, and can be read. -/
structure Desk.Wrote (before after : Desk) (path text : String) : Prop where
  written : after.written = before.written ++ [(path, text)]
  tree : before.tree.write path text = .ok after.tree
  reads : after.tree.read path = .ok text

/-- One file after the other leads from one desk to another, and nothing is written but for them. -/
def Connects (parser : Parser) : Desk → List Visit → Desk → Prop
  | desk, [], last => desk.Untouched last
  | desk, v :: rest, last => v.before = desk ∧ Connects parser (deskOf (v.result parser)) rest last

section Runs

variable {parser : Parser} {a : Arguments}

theorem arguments_of_mem {session : Session} {files : List String} {desk : Desk} {v : Visit}
    (member : v ∈ visitsFrom parser a session files desk) : v.arguments = a := by
  induction files generalizing session desk with
  | nil => exact absurd member List.not_mem_nil
  | cons path rest ih =>
    rw [visitsFrom] at member
    obtain rfl | later := List.mem_cons.1 member
    · rfl
    · split at later
      · exact ih later
      · exact absurd later List.not_mem_nil

/-- The files that are compiled lead from where the work starts to where it ends. They are come to in
order, and to all of them if the work is done. -/
theorem compileFiles_visits (parser : Parser) (a : Arguments) (session : Session)
    (files : List String) (desk : Desk) :
    let visits := visitsFrom parser a session files desk
    let done := Desk.world.compileFiles parser a session files desk
    Connects parser desk visits (deskOf done) ∧ visits.map (·.path) <+: files
      ∧ ∀ u last, done = .ok u last → visits.map (·.path) = files := by
  induction files generalizing session desk with
  | nil => exact ⟨⟨rfl, rfl⟩, List.prefix_rfl, fun _ _ _ => rfl⟩
  | cons path rest ih =>
    intro visits done
    cases made : (firstVisit a session path rest desk).result parser with
    | error e after =>
      have stopped : done = .error e after := desk_bind_error made
      have only : visits = [firstVisit a session path rest desk] := by
        change (firstVisit a session path rest desk) :: _ = _
        rw [made]
      rw [stopped, only]
      refine ⟨⟨rfl, made ▸ ⟨rfl, rfl⟩⟩, ?_, fun _ _ => nofun⟩
      exact List.cons_prefix_cons.2 ⟨rfl, List.nil_prefix⟩
    | ok session' after =>
      have goesOn : done = Desk.world.compileFiles parser a session' rest after := desk_bind_ok made
      have more : visits = firstVisit a session path rest desk
          :: visitsFrom parser a session' rest after := by
        change (firstVisit a session path rest desk) :: _ = _
        rw [made]
      obtain ⟨connects, paths, all⟩ := ih session' after
      rw [goesOn, more]
      refine ⟨⟨rfl, made ▸ connects⟩, List.cons_prefix_cons.2 ⟨rfl, paths⟩, fun u last ended => ?_⟩
      exact congrArg (path :: ·) (all u last ended)

/-- Where classes cannot be written, that is said; else nothing happens. -/
theorem checkOut_cases (a : Arguments) (desk : Desk) :
    Desk.world.checkOut a desk = .ok () desk ∨ ∃ notice,
      Desk.world.checkOut a desk
        = .error .stopped { desk with printed := desk.printed ++ notice } := by
  unfold World.checkOut
  cases a.out with
  | none => exact .inl rfl
  | some out =>
    have may : Desk.world.isWritable out desk = .ok (desk.tree.isAccessible out) desk := rfl
    exact require_cases out desk may .outNotFound .outNotAccess []

end Runs

/-- The files that a run comes to lead from where it starts to where it ends. -/
theorem run_visits (parser : Parser) (desk : Desk) (arguments : List String) :
    Connects parser desk (desk.visits parser arguments) (desk.run parser arguments).2
      ∧ ∀ a, Arguments.read arguments = .ok a →
        (desk.visits parser arguments).map (·.path) <+: a.files
          ∧ ((desk.run parser arguments).1 = .ok .finished →
            (desk.visits parser arguments).map (·.path) = a.files) := by
  unfold Desk.visits Desk.run World.run
  cases Arguments.read arguments with
  | error halt =>
    refine ⟨?_, by simp⟩
    cases halt <;> exact ⟨rfl, rfl⟩
  | ok a =>
    dsimp only
    unfold World.work
    obtain ready | ⟨notice, refused⟩ := checkOut_cases a desk
    · obtain ⟨connects, paths, all⟩ := compileFiles_visits parser a {} a.files desk
      rw [ready, bind_assoc, desk_bind_ok ready]
      cases ended : Desk.world.compileFiles parser a {} a.files desk with
      | error e last =>
        rw [desk_bind_error ended]
        rw [ended] at connects
        refine ⟨connects, ?_⟩
        rintro _ ⟨⟩
        exact ⟨paths, nofun⟩
      | ok u last =>
        rw [desk_bind_ok ended]
        rw [ended] at connects
        refine ⟨connects, ?_⟩
        rintro _ ⟨⟩
        exact ⟨paths, fun _ => all u last ended⟩
    · rw [refused, bind_assoc, desk_bind_error refused]
      refine ⟨⟨rfl, rfl⟩, ?_⟩
      rintro _ ⟨⟩
      exact ⟨List.nil_prefix, nofun⟩

section Visit

variable {parser : Parser} {v : Visit}

theorem untouched_of_error {e : Fault} {after : Desk} (failed : v.result parser = .error e after) :
    v.before.Untouched after := by
  have seen := visited parser v
  rw [failed] at seen
  cases seen <;> exact ⟨rfl, rfl⟩

/-- For a file that is done with, a class is written if and only if no error was printed. -/
theorem wrote_iff_of_ok {session : Session} {after : Desk}
    (finished : v.result parser = .ok session after) :
    ∃ text java s, v.before.tree.read v.path = .ok text
      ∧ compile parser (Text.withEvenLineEnds text) v.start = .ok java s
      ∧ after.printed = v.before.printed ++ s.log
      ∧ (anyError s.printed.toList = false ↔ ∃ code, java = some code
        ∧ v.before.Wrote after (v.classPath s) (Java.indent code))
      ∧ (anyError s.printed.toList = true → v.before.Untouched after) := by
  have known {text : String} {java : Option String} {s : State}
      (compiled : compile parser text v.start = .ok java s) :
      s.codeError = anyError s.printed.toList := by
    have same : s = endState (compile parser text v.start) := by rw [compiled]; rfl
    rw [same]
    exact codeError_compile parser v.session (v.arguments.options v.isMain) (baseName v.path) text
  have seen := visited parser v
  rw [finished] at seen
  cases seen with
  | @spoilt text java s found compiled failed =>
    rw [known compiled] at failed
    refine ⟨text, java, s, found, compiled, rfl, ?_, fun _ => ⟨rfl, rfl⟩⟩
    rw [failed]
    refine ⟨nofun, ?_⟩
    rintro ⟨code, -, wrote⟩
    have written := wrote.written
    simp [Desk.telling] at written
  | @written text java s tree found compiled fine written =>
    rw [known compiled] at fine
    refine ⟨text, some java, s, found, compiled, rfl, ?_, by simp [fine]⟩
    exact ⟨fun _ => ⟨java, rfl, rfl, written, FileTree.read_of_write written⟩, fun _ => fine⟩

end Visit

/-- A run writes exactly the classes of the files without an error. For every file that it is done
with, its class is written if and only if no error was printed about it, and then the text of the
class is the one that the compilation has come to, laid out; a file with an error leaves the tree as
it is, and so does a file that ends the run. The run comes to its files in order, and writes nothing
else. -/
theorem class_written_iff_no_error (parser : Parser) (desk : Desk) (arguments : List String) :
    let visits := desk.visits parser arguments
    (∀ v ∈ visits, Arguments.read arguments = .ok v.arguments
        ∧ (∀ session after, v.result parser = .ok session after →
          ∃ text java s, v.before.tree.read v.path = .ok text
            ∧ compile parser (Text.withEvenLineEnds text) v.start = .ok java s
            ∧ after.printed = v.before.printed ++ s.log
            ∧ (anyError s.printed.toList = false ↔ ∃ code, java = some code
              ∧ v.before.Wrote after (v.classPath s) (Java.indent code))
            ∧ (anyError s.printed.toList = true → v.before.Untouched after))
        ∧ ∀ fault after, v.result parser = .error fault after → v.before.Untouched after)
      ∧ Connects parser desk visits (desk.run parser arguments).2
      ∧ ∀ a, Arguments.read arguments = .ok a → visits.map (·.path) <+: a.files
        ∧ ((desk.run parser arguments).1 = .ok .finished → visits.map (·.path) = a.files) := by
  intro visits
  obtain ⟨connects, paths⟩ := run_visits parser desk arguments
  refine ⟨fun v member => ⟨?_, fun _ _ => wrote_iff_of_ok, fun _ _ => untouched_of_error⟩, connects,
    paths⟩
  unfold visits Desk.visits at member
  cases read : Arguments.read arguments with
  | error halt =>
    rw [read] at member
    exact absurd member List.not_mem_nil
  | ok a =>
    rw [read] at member
    dsimp only at member
    split at member
    · rw [arguments_of_mem member]
    · exact absurd member List.not_mem_nil

end PerlJava.CommandLine
