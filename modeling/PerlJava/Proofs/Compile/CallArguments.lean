import PerlJava.Compile.Builtin
import PerlJava.Compile.Statement
import PerlJava.Proofs.Compile.AuxiliaryNames
import PerlJava.Proofs.Compile.EnsuredResult
import PerlJava.Proofs.Compile.PrintedTypes
import PerlJava.Proofs.Java.ConvertedArgument

/-!
# Arguments of the calls that are written

A call in Java is written with the parentheses at the ends of each argument left out. If every
argument is one expression, and parentheses at its ends enclose one, then the call has as many
arguments as the call in Perl. Three functions are left aside: `delete` and `each` take their argument
apart, and for `exists` no call is written.
-/

namespace PerlJava.Compile

open Java

/-! ### Arguments as they are passed -/

section Argument

variable {c : Fragment} {text : String}

theorem ensures_sync (c : Fragment) : Ensures (· = c) (sync c) := by
  unfold sync
  split
  · exact .after fun _ => .pure rfl
  · exact .pure rfl

/-- An argument is one expression, and parentheses at its ends enclose one. -/
structure IsArgument (c : Fragment) : Prop extends c.IsSingle where
  ends : EndsEnclose c.value

private theorem stripParens_eq (c : Fragment) : ∃ value, c.stripParens = { c with value } := by
  unfold Fragment.stripParens
  split
  · exact ⟨_, rfl⟩
  · exact ⟨_, rfl⟩

theorem IsArgument.stripped (argument : IsArgument c) : c.stripParens.IsSingle := by
  have single := (c.single_stripParens_iff argument.value).2 argument.ends
  obtain ⟨value, same⟩ := stripParens_eq c
  rw [same] at single ⊢
  exact ⟨single, argument.condition, argument.named⟩

theorem ensures_unwrapped (argument : IsArgument c) : Ensures (·.IsSingle) (unwrapped c) := by
  intro s d s' run
  rw [ensures_sync c.stripParens s d s' run]
  exact argument.stripped

private theorem single_newRef {type : String} (single : Single text) (isType : IsTypeText type) :
    Single ("new Ref<" ++ type ++ ">(" ++ text ++ ")") := by
  obtain ⟨afterWord, read⟩ := isType ['<']
  refine single.called ?_
  have opened : "new Ref<".toList.foldlM CodeReading.step {} = some ⟨['<'], .code false⟩ := rfl
  simp only [String.toList_append, List.foldlM_append, opened, Option.bind_eq_bind, Option.bind_some,
    read]
  cases afterWord <;> rfl

/-- A text that is one argument, with the fragment it stands for. -/
def IsConverted (r : String × Fragment) : Prop :=
  Single r.1 ∧ r.2.IsSingle

/-- Code that is not referred to stays as it is, maybe with an error. -/
theorem Post.kept {wanted : String × Fragment → Prop} {target : Shape} (kept : wanted (c.value, c)) :
    Ensures wanted (agreed target false c) :=
  .after fun _ => .either (fun _ => .pure kept) fun _ =>
    .after fun _ => .after fun _ => .after fun _ => .pure kept

theorem ensures_agreed (single : c.IsSingle) (target : Shape) (asReference : Bool) :
    Ensures IsConverted (agreed target asReference c) := by
  cases asReference with
  | false => exact .kept ⟨single.value, single⟩
  | true =>
    refine .lift_bind fun type printed => ?_
    obtain ⟨ds, parts, printed⟩ := bind_eq_ok.1 printed
    have isType := isTypeText_printDims (single.named ds parts) printed
    exact .pure ⟨single_newRef single.value isType, single⟩

/-- The ways in which code is converted. -/
theorem Post.convert {wanted : String × Fragment → Prop} {target : Shape}
    (kept : wanted (c.value, c)) (truth : ∀ text, c.toBoolean = .ok text → wanted (text, c))
    (number : ∀ t text, c.toNumberType t = .ok text → wanted (text, c))
    (string : ∀ text, c.toText = .ok text → wanted (text, c))
    (list : ∀ d, c.toList = .ok d → Ensures wanted (agreed target false d))
    (array : ∀ d, c.toArray = .ok d → Ensures wanted (agreed target false d))
    (other : Ensures wanted (agreed target c.ref c)) : Ensures wanted (convert target c) := by
  have numbers (t : NumberType) :
      Ensures wanted (do return (← (liftM (c.toNumberType t) : Plain String), c)) :=
    .lift_bind fun text made => .pure (number t text made)
  unfold Compile.convert
  refine .after fun head => .after fun size => ?_
  split
  · split
    · exact .lift_bind fun text made => .pure (truth text made)
    · exact numbers .integer
    · exact numbers .long
    · exact numbers .float
    · exact numbers .double
    · exact .lift_bind fun text made => .pure (string text made)
    · exact .pure kept
  · split
    · exact .lift_bind fun d made => .bind (ensures_sync d) fun _ same => same ▸ list d made
    · exact .lift_bind fun d made => .bind (ensures_sync d) fun _ same => same ▸ array d made
    · exact other

theorem ensures_convert (single : c.IsSingle) (target : Shape) :
    Ensures IsConverted (convert target c) := by
  refine .convert ⟨single.value, single⟩ (fun _ made => ⟨?_, single⟩) (fun t _ made => ⟨?_, single⟩)
    (fun _ made => ⟨?_, single⟩) (fun d made => ?_) (fun d made => ?_) ?_
  · exact single_toBoolean single.value single.condition made
  · exact single_toNumberType t single.value made
  · exact single_toText single.value made
  · exact ensures_agreed (isSingle_toList single made) target false
  · exact ensures_agreed (isSingle_toArray single made) target false
  · exact ensures_agreed single target c.ref

theorem ensures_converted (single : c.IsSingle) (target : Shape) :
    Ensures Single (converted target c) :=
  .bind (ensures_convert single target) fun _ both => .pure both.1

end Argument

/-! ### Calls that are written -/

/-- A text begins with a call of a function with some number of arguments. -/
def BeginsCall (function : String) (n : Nat) (text : String) : Prop :=
  ∃ rest, text = function ++ "(" ++ rest ∧ argumentCount rest = some n

/-- A text calls a function: at once, inside `Pd.fe`, which goes on to update a variable, or to assign
the result, maybe in another type. -/
def Calls (function : String) (n : Nat) (text : String) : Prop :=
  ∃ before call, text = before ++ call ∧ BeginsCall function n call ∧ (before = ""
    ∨ before = "Pd.fe(" ∨ ∃ target around, Single target ∧ before = target ++ " = " ++ around)

/-- Code calls a function with some number of arguments, as an expression and as a statement of its
own, where the function may be another. There is no code if the call has been refused with an error. -/
def Emits (function alone : String) (n : Nat) (code : Fragment) (s : State) : Prop :=
  (code.value = "" ∧ code.statement = none ∧ s.codeError = true)
    ∨ Calls function n code.value ∧ ∃ text, code.statement = some text ∧ Calls alone n text

section Calls

variable {function alone opening text listed target : String} {n : Nat} {call : NativeCall}

private theorem begins_list (list : Listed n listed) (opens : opening = function ++ "(") :
    BeginsCall function n (opening ++ listed ++ ")") := by
  refine ⟨listed ++ ")", by rw [opens, String.append_assoc], ?_⟩
  have counted := list.argumentCount_eq ""
  rwa [String.append_empty] at counted

private theorem begins_one (single : Single text) (opens : opening = function ++ "(") :
    BeginsCall function 1 (opening ++ text ++ ")") :=
  begins_list (.one single) opens

private theorem begins_cons {first : String} (single : Single first) (list : Listed (n + 1) listed)
    (opens : opening = function ++ "(") :
    BeginsCall function (n + 2) (opening ++ first ++ ", " ++ listed ++ ")") := by
  have begins := begins_list (list.cons single) opens
  simpa only [String.append_assoc] using begins

namespace BeginsCall

theorem followed (begins : BeginsCall function n text) (after : String) :
    BeginsCall function n (text ++ after) := by
  obtain ⟨rest, rfl, counted⟩ := begins
  exact ⟨rest ++ after, by rw [String.append_assoc], argumentCount_append counted after⟩

theorem calls (begins : BeginsCall function n text) : Calls function n text :=
  ⟨"", text, String.empty_append.symm, begins, .inl rfl⟩

theorem updated (begins : BeginsCall function n text) (after : String) :
    Calls function n ("Pd.fe(" ++ text ++ after) :=
  ⟨"Pd.fe(", text ++ after, String.append_assoc, begins.followed after, .inr (.inl rfl)⟩

theorem converted (begins : BeginsCall function n text) (single : Single target)
    (around after : String) : Calls function n (target ++ " = " ++ (around ++ text ++ after)) :=
  ⟨target ++ " = " ++ around, text ++ after, by simp only [String.append_assoc],
    begins.followed after, .inr (.inr ⟨target, around, single, rfl⟩)⟩

theorem assigned (begins : BeginsCall function n text) (single : Single target) :
    Calls function n (target ++ " = " ++ text) := by
  have calls := begins.converted single "" ""
  rwa [String.empty_append, String.append_empty] at calls

end BeginsCall

private theorem emits_refused {m : Message} {at_ : Option Position} {names : Diagnostic.Names}
    (isError : m.isWarning = false) :
    Post (Emits function alone n) (do report m at_ names; return NativeCall.refused) :=
  .reported isError fun _ failed => .inl ⟨rfl, rfl, failed⟩

private theorem emits_refuse : Post (Emits function alone n) call.refuse :=
  emits_refused rfl

theorem emits_text {code : Fragment} (calls : Calls function n text) (value : code.value = text)
    (whole : code.statement = some text) (s : State) : Emits function function n code s :=
  .inr ⟨value ▸ calls, text, whole, calls⟩

theorem emits_result {shape : Shape} {declares : List DeclId} (begins : BeginsCall function n text) :
    ∀ s, Emits function function n (call.result text shape declares) s :=
  emits_text begins.calls rfl rfl

end Calls

/-- The functions that Perl provides, as far as their arguments become those of a call in Java. -/
inductive Native where
  | print
  | split
  | join
  | keysOrValues
  | chop
  | defined
  | open_
  | close
  | sort
  | onText (type : TypeName)
  | exit
  | substr
  | splice
  | push
  | pop

namespace Native

def translate : Native → NativeCall → Plain Fragment
  | print => NativeCall.print
  | split => NativeCall.split
  | join => NativeCall.join
  | keysOrValues => NativeCall.keysOrValues
  | chop => NativeCall.chop
  | defined => NativeCall.defined
  | open_ => NativeCall.open_
  | close => NativeCall.close
  | sort => NativeCall.sort
  | onText type => (NativeCall.onText · type)
  | exit => NativeCall.exit
  | substr => NativeCall.substr
  | splice => NativeCall.splice
  | push => NativeCall.push
  | pop => NativeCall.pop

/-- The function that is called where the result is used. -/
def function (call : NativeCall) : Native → String
  | split => "Perl.split"
  | join => "Perl.join"
  | defined => "Perl.defined"
  | open_ => "Perl.open"
  | close => "Perl.close"
  | sort => "Perl.sort"
  | exit => "Perl.exit"
  | substr => "Perl.substr"
  | splice => "Perl.splice"
  | print | keysOrValues | chop | onText _ | push | pop => "Perl." ++ call.name

/-- The function that is called where the result is not used. -/
def alone (call : NativeCall) : Native → String
  | chop => "Perl.chomp"
  | f => f.function call

/-- What is popped from loses its last character if it begins with a parenthesis, so it has to be one
as well. -/
def Admits : Native → Fragment → Prop
  | pop, c =>
    IsArgument c ∧ (c.value.toList.head? = some '(' → c.value.toList.getLast? = some ')')
  | _, c => IsArgument c

/-- Calls of a function are written with as many arguments as they have in Perl. -/
def Counted (f : Native) : Prop :=
  ∀ call : NativeCall, (∀ c ∈ call.arguments, f.Admits c) →
    Post (Emits (f.function call) (f.alone call) call.arguments.length) (f.translate call)

end Native

/-! ### Lists that are written one by one -/

/-- A list of some arguments with a comma and a blank behind each. -/
def Trailing (n : Nat) (text : String) : Prop :=
  (n = 0 ∧ text = "") ∨ ∃ k listed, n = k + 1 ∧ Listed (k + 1) listed ∧ text = listed ++ ", "

section Trailing

variable {n : Nat} {text argument : String}

theorem Trailing.next (trailing : Trailing n text) (single : Single argument) :
    Trailing (n + 1) (text ++ argument ++ ", ") := by
  obtain ⟨rfl, rfl⟩ | ⟨k, listed, rfl, list, rfl⟩ := trailing
  · exact .inr ⟨0, argument, rfl, .one single, by rw [String.empty_append]⟩
  · exact .inr ⟨k + 1, listed ++ ", " ++ argument, rfl, .more list single, rfl⟩

theorem Trailing.listed (trailing : Trailing n text) : Listed n (Text.sliceTo text (-2)) := by
  obtain ⟨rfl, rfl⟩ | ⟨k, listed, rfl, list, rfl⟩ := trailing
  · exact .none
  · have bound : Text.clampBound (listed ++ ", ").length (-2) = listed.toList.length := by
      rw [← String.length_toList, String.toList_append, List.length_append]
      change (-2 + ((listed.toList.length + 2 : Nat) : Int)).toNat = _
      omega
    have same : Text.sliceTo (listed ++ ", ") (-2) = listed := by
      rw [Text.sliceTo, bound, String.toList_append, List.take_left, String.ofList_toList]
    rwa [same]

/-- A list is longer than what stands behind its last argument, if there is one. -/
theorem Trailing.listed_of_short (trailing : Trailing n text) (short : ¬text.length > 2) :
    Listed n text := by
  obtain ⟨rfl, rfl⟩ | ⟨k, listed, rfl, list, rfl⟩ := trailing
  · exact .none
  · have long := list.length_pos
    rw [String.length_append] at short
    change ¬listed.length + 2 > 2 at short
    omega

end Trailing

namespace NativeCall

variable {call : NativeCall} {arguments : List Fragment} {c file : Fragment}

/-! ### Printing -/

theorem ensures_printed (all : ∀ c ∈ arguments, IsArgument c) (checked : Bool) :
    Ensures (fun r => Listed arguments.length r.1) (printed arguments checked) := by
  unfold printed
  refine .bind (@Post.rounds _ _ _ (fun n r => Trailing n r.2) _ 0 _ (.inl ⟨rfl, rfl⟩) ?_) ?_
  · intro c member n r trailing
    refine .either (fun _ => .after fun _ => ?_) fun _ => ?_
    all_goals
      refine .bind (ensures_unwrapped (all c member)) fun d single => .lift_bind fun text made => ?_
      exact .pure ⟨_, rfl, trailing.next (single_toPrinted single.value made)⟩
  · intro r trailing
    rw [Nat.zero_add] at trailing
    exact .pure trailing.listed

theorem counted_print : Native.print.Counted := fun _ all =>
  .bind (ensures_printed all false) fun _ list => .done (emits_result (begins_list list rfl))

theorem emits_printTo (all : ∀ c ∈ call.arguments, IsArgument c) :
    Post (Emits (file.value ++ "." ++ call.name) (file.value ++ "." ++ call.name)
      call.arguments.length) (call.printTo file) := by
  unfold printTo
  refine .after fun head => ?_
  cases call.arguments.head? <;> refine .either (fun _ => ?_) fun _ => .after fun _ => ?_
  all_goals
    refine .after fun _ => .bind (ensures_printed all true) fun r list => ?_
    exact .done (emits_result (begins_list list rfl))

/-! ### Calls with one argument -/

section Single

variable {function alone : String} {f : Fragment → Plain Fragment}

theorem emits_single (each : ∀ c, call.arguments = [c] → Post (Emits function alone 1) (f c)) :
    Post (Emits function alone call.arguments.length) (call.single f) := by
  unfold single
  split
  · next c is =>
    rw [is]
    exact each c is
  · exact emits_refuse

theorem emits_checkedSingle (all : ∀ c ∈ call.arguments, IsArgument c)
    (each : ∀ c, c.IsSingle → Post (Emits function alone 1) (f c)) :
    Post (Emits function alone call.arguments.length) (call.checkedSingle f) := by
  refine emits_single fun c is => .after fun _ => .bind (ensures_unwrapped ?_) each
  exact all c (by simp [is])

/-- An argument that is passed as it is. -/
theorem emits_one {opening : String} {shape : Fragment → Shape} (argument : IsArgument c)
    (opens : opening = function ++ "(") : Post (Emits function function 1) (do
      let d ← unwrapped c
      return call.result (opening ++ d.value ++ ")") (shape d) d.declares) :=
  .bind (ensures_unwrapped argument) fun _ single =>
    .done (emits_result (begins_one single.value opens))

end Single

theorem counted_keysOrValues : Native.keysOrValues.Counted := by
  refine fun call all => emits_single fun c is => ?_
  have argument : IsArgument c := all c (by simp [is])
  refine .either (fun _ => .after fun shape => ?_) fun _ => .after fun _ => .after fun shape => ?_
  all_goals
    refine .after fun _ => .after fun head => .either (fun _ => emits_one argument rfl) fun _ => ?_
    exact .after fun _ => .after fun _ => .after fun _ => emits_one argument rfl

theorem counted_defined : Native.defined.Counted := fun _ all =>
  emits_checkedSingle all fun _ single => .done (emits_result (begins_one single.value rfl))

theorem counted_close : Native.close.Counted := by
  refine fun call all => emits_single fun c is => .after fun _ => .after fun head => ?_
  have argument : IsArgument c := all c (by simp [is])
  exact .either (fun _ => emits_one argument rfl) fun _ => .after fun _ => emits_one argument rfl

theorem counted_sort : Native.sort.Counted := by
  refine fun call all => emits_single fun c is => .after fun head => ?_
  have argument : IsArgument c := all c (by simp [is])
  exact .either (fun _ => .after fun _ => emits_one argument rfl) fun _ => emits_refused rfl

theorem counted_onText (type : TypeName) : (Native.onText type).Counted := fun _ all =>
  emits_checkedSingle all fun _ single => .lift_bind fun _ made =>
    .done (emits_result (begins_one (single_toText single.value made) rfl))

theorem counted_exit : Native.exit.Counted := fun _ all =>
  emits_checkedSingle all fun _ single => .lift_bind fun _ made =>
    .done (emits_result (begins_one (single_toNumberType _ single.value made) rfl))

/-! ### Calls with several arguments -/

theorem counted_split : Native.split.Counted := by
  intro call all
  change Post _ call.split
  unfold split
  split
  · next pattern text is =>
    rw [is] at all ⊢
    simp only [List.forall_mem_cons, Native.Admits] at all
    refine .after fun _ => .lift_bind fun first made => .after fun _ => ?_
    refine .lift_bind fun second made' => ?_
    have list : Listed 1 second := .one (single_toText all.2.1.value made')
    exact .done (emits_result (begins_cons (single_toText all.1.value made) list rfl))
  · exact emits_refuse

private theorem ne_of_not_sequence {d : Dim} (other : d.isSequence = false) :
    (Dim.plain .array).agrees d = false ∧ d.is .list = false := by
  cases d with
  | letter | missing => exact ⟨rfl, rfl⟩
  | plain name | sized name => cases name <;> first | exact ⟨rfl, rfl⟩ | cases other

private theorem agrees_strings {shape : Shape} {d : Dim} (read : shape.head = .ok d)
    (other : d.isSequence = false) :
    (Shape.ofNames [.array, .string]).agrees shape = .ok false := by
  obtain ⟨ds, parts, read⟩ := bind_eq_ok.1 read
  rw [Shape.agrees, parts]
  cases ds with
  | nil => rfl
  | cons e rest =>
    cases read
    change Except.ok (_ && ((Dim.plain .array).agrees d && _)) = _
    rw [(ne_of_not_sequence other).1, Bool.false_and, Bool.and_false]

/-- What is neither an array nor a list does not become an array. -/
private theorem post_convert_strings {d : Dim} (read : c.head = .ok d) (other : d.isSequence = false) :
    Post (fun _ s => s.codeError = true) (convert (.ofNames [.array, .string]) c) := by
  have same : c.toArray = .ok c := by
    rw [Fragment.toArray, read]
    exact if_neg (by rw [(ne_of_not_sequence other).2]; exact Bool.false_ne_true)
  change Post _ (do agreed (.ofNames [.array, .string]) false (← sync (← liftM c.toArray)))
  rw [same]
  refine .lift_bind ?_
  rintro _ ⟨⟩
  refine .bind (ensures_sync c) ?_
  rintro _ rfl
  refine .lift_bind fun agree agrees => ?_
  cases (agrees_strings read other).symm.trans agrees
  exact .after fun _ => .after fun _ => .reported rfl fun _ failed => failed

theorem counted_join : Native.join.Counted := by
  intro call all
  change Post _ call.join
  unfold join
  split
  · next separator parts is =>
    rw [is] at all ⊢
    simp only [List.forall_mem_cons, Native.Admits] at all
    refine .lift_bind fun head read => ?_
    have other (x : Plain Bool) :
        Ensures (fun b => b = true → head.isSequence = false) (pure (!head.isSequence) <&&> x) := by
      cases head.isSequence with
      | false => exact fun _ _ _ _ _ => rfl
      | true => rintro _ _ _ ⟨⟩ ⟨⟩
    refine .bind (other _) fun b other => .either (fun holds => ?_) fun _ => ?_
    · intro s code s' run
      obtain ⟨_, s₁, ran, ⟨⟩⟩ := Plain.cut run
      exact .inl ⟨rfl, rfl, post_convert_strings read (other holds) s _ s' ran⟩
    refine .after fun _ => .after fun _ => .lift_bind fun text made => ?_
    exact .done (emits_result (begins_cons (single_toText all.1.value made) (.one all.2.1.value) rfl))
  · exact emits_refuse

theorem counted_open : Native.open_.Counted := by
  intro call all
  change Post _ call.open_
  unfold open_
  split
  · next file mode path is =>
    rw [is] at all ⊢
    simp only [List.forall_mem_cons, Native.Admits] at all
    have opened : Single (file.value ++ " = new PerlFile()") := all.1.value.followed (by decide)
    refine .after fun head => .either (fun _ => .after fun _ => ?_) fun _ => ?_
    all_goals
      split
      · refine .bind (ensures_sync _) ?_
        rintro _ rfl
        refine .after fun _ => .after fun _ => .lift_bind fun second made => ?_
        refine .lift_bind fun third made' => ?_
        have list : Listed 2 (second ++ ", " ++ third) :=
          .more (.one (single_toText all.2.1.value made)) (single_toText all.2.2.1.value made')
        have calls := @begins_cons "Perl.open" "Perl.open(" _ _ _ opened list rfl
        simp only [String.append_assoc] at calls ⊢
        exact .done (emits_result calls)
      · exact emits_refused rfl
  · exact emits_refuse

/-! ### Calls that change their first argument -/

section Changing

variable {function alone opening rest : String} {n : Nat} {code : Fragment}

/-- New names are words. -/
private theorem ensures_freshCallName : Ensures (fun name => ∀ opened,
    name.toList.foldlM CodeReading.step ⟨opened, .code false⟩ = some ⟨opened, .code true⟩)
    freshCallName := by
  have read {digits : List Char} (word : ∀ c ∈ digits, c.isAlphanum = true) (opened : List Char) :
      ("pd_f".toList ++ digits).foldlM CodeReading.step ⟨opened, .code false⟩
        = some ⟨opened, .code true⟩ := by
    rw [List.foldlM_append]
    exact CodeReading.foldlM_word word
  rintro s _ s' ⟨⟩
  unfold freshAmong
  split
  · obtain ⟨m, -, found⟩ := Auxiliary.firstUnused_numbered "pd_f" s.veiled.reserved 1
    rw [found, String.toList_append]
    refine read fun c member => ?_
    rw [Nat.toString_eq_repr, Nat.repr, String.toList_ofList] at member
    have digit := Nat.isDigit_of_mem_toDigits (by decide) (by decide) member
    simp [Char.isAlphanum, digit]
  · exact read (by simp)

/-- A variable is passed as a new reference to its value, which is one argument. -/
theorem ensures_passByReference (single : c.IsSingle) (parameter : Shape) :
    Ensures (fun r => ∃ argument, r.1.value = code.value ++ argument
      ∧ r.1.statement = code.statement ∧ Single argument) (passByReference code parameter c) := by
  unfold passByReference
  refine .bind ensures_freshCallName fun name word => .after fun _ => .after fun _ => ?_
  refine .bind (ensures_convert single parameter) fun r converted => .after fun _ => .after fun _ => ?_
  refine .pure ⟨name ++ "=new Ref<>(" ++ r.1 ++ ")", by simp only [String.append_assoc], rfl, ?_⟩
  refine converted.1.called ?_
  rw [String.toList_append, List.foldlM_append, word []]
  rfl

theorem emits_updating (single : c.IsSingle) {parameter : Shape}
    (opens : code.value = function ++ "(") {statement : String}
    (whole : code.statement = some statement) (calls : Calls alone n statement)
    (list : ∀ argument, Single argument → Listed n (argument ++ rest)) :
    Post (Emits function alone n) (updating code parameter c rest) := by
  refine .bind (ensures_passByReference single parameter) ?_
  rintro ⟨passed, update, _⟩ ⟨argument, value, same, one⟩
  refine .done fun _ => .inr ⟨?_, statement, same.trans whole, calls⟩
  have inside := (begins_list (list argument one) opens).updated ("," ++ update ++ ")")
  change Calls function n ("Pd.fe(" ++ passed.value ++ rest ++ ")," ++ update ++ ")")
  rw [value, show ")," = ")" ++ "," from rfl]
  simpa only [String.append_assoc] using inside

/-- A call on a list is left as it is, and any other is passed a reference. -/
theorem emits_changing {target : Fragment} {statement : String} (single : target.IsSingle)
    (asList : ∀ s, Emits function function n code s) (opens : opening = function ++ "(")
    (calls : Calls function n statement)
    (list : ∀ argument, Single argument → Listed n (argument ++ rest)) :
    Post (Emits function function n) (changing code target opening statement rest) :=
  .after fun _ => .either (fun _ => .done asList) fun _ => emits_updating single opens rfl calls list

private theorem listed_alone (argument : String) (one : Single argument) :
    Listed 1 (argument ++ "") := by
  rw [String.append_empty]
  exact .one one

/-- The value of a fragment that is a string and nothing else, in another type, has it in it. -/
private theorem ensures_converted_string (target : Shape) {text : String}
    (begins : text.toList.head? = some 'P') :
    Ensures (fun made => ∃ before after, made = before ++ text ++ after)
      (converted target { shape := .scalar .string, value := text }) := by
  let c : Fragment := { shape := .scalar .string, value := text }
  have whole : ∃ before after, text = before ++ text ++ after := ⟨"", "", by simp⟩
  have truth : c.toBoolean = .ok ("Pd.eval(" ++ text ++ ")") := by
    obtain ⟨rest, same⟩ := List.head?_eq_some_iff.1 begins
    change (if digitsOnly.matchesStart text then _ else _) = _
    rw [digitsOnly_eq_false same rfl (by decide)]
    rfl
  refine .bind (Post.convert (c := c) whole (fun _ made => ?_) (fun t _ made => ?_)
    (fun _ made => ?_) (fun d made => ?_) (fun d made => ?_) (.kept whole)) fun _ around =>
      .pure around
  · cases truth.symm.trans made
    exact ⟨_, _, rfl⟩
  · cases made
    exact ⟨_, _, rfl⟩
  · cases made
    exact whole
  · cases made
    exact .kept whole
  · cases made
    exact .kept whole

private theorem ensures_addedText {target new : Fragment} (single : new.IsSingle) :
    Ensures Single (addedText target new) := by
  refine .after fun _ => .after fun _ => .either (fun _ => ?_) fun _ => .pure single.value
  exact .after fun inner => ensures_converted single inner

/-- What is popped from loses its first character only where it loses its last one as well. -/
theorem ensures_withoutParens (admitted : Native.pop.Admits c) :
    Ensures (·.IsSingle) (withoutParens c) := by
  unfold withoutParens
  split
  · exact .fail
  · next begins =>
    have stripped : c.stripParens = { c with value := Text.slice c.value 1 (-1) } := by
      rw [Fragment.stripParens, admitted.2 (by rw [begins]; rfl), begins]
      rfl
    rw [← stripped]
    exact ensures_unwrapped admitted.1
  · exact .pure admitted.1.toIsSingle

end Changing

theorem counted_chop : Native.chop.Counted := by
  intro call all
  change Post _ call.chop
  unfold chop
  refine .either (fun _ => .after fun _ => ?_) fun _ => ?_
  all_goals
    refine emits_single fun c is => .after fun _ => .after fun _ => ?_
    refine .bind (ensures_unwrapped (all c (by simp [is]))) fun d single => ?_
    refine .lift_bind fun text made => .bind (ensures_converted_string d.shape (by simp)) ?_
    rintro _ ⟨before, after, rfl⟩
    have chomps : BeginsCall "Perl.chomp" 1 ("Perl.chomp(" ++ text ++ ")") :=
      begins_one (single_toText single.value made) rfl
    exact emits_updating single rfl rfl (chomps.converted single.value before after) listed_alone

theorem counted_push : Native.push.Counted := by
  intro call all
  change Post _ call.push
  unfold push
  refine .after fun position => ?_
  dsimp only
  split
  · next target new is =>
    rw [is] at all ⊢
    simp only [List.forall_mem_cons, Native.Admits] at all
    refine .after fun _ => .after fun head => ?_
    refine .either (fun _ => .after fun _ => ?_) fun _ => .after fun _ => .after fun _ => ?_
    all_goals
      refine .either (fun _ => ?_) fun _ => emits_refused rfl
      refine .after fun _ => .after fun _ => ?_
      refine .bind (ensures_addedText all.2.1.toIsSingle) fun element single => ?_
      have begins : BeginsCall ("Perl." ++ call.name) 2
          ("Perl." ++ call.name ++ "(" ++ target.value ++ ", " ++ element ++ ")") :=
        begins_cons all.1.value (.one single) rfl
      exact emits_changing all.1.toIsSingle (emits_result begins) rfl (begins.assigned all.1.value)
        fun first one => .cons one (.one single)
  · exact emits_refuse

theorem counted_pop : Native.pop.Counted := by
  refine fun call all => emits_single fun c is => ?_
  refine .bind (ensures_withoutParens (all c (by simp [is]))) fun d single => ?_
  refine .after fun _ => .after fun head => .either (fun _ => ?_) fun _ => .after fun _ => ?_
  all_goals
    have begins : BeginsCall ("Perl." ++ call.name) 1 ("Perl." ++ call.name ++ "(" ++ d.value ++ ")") :=
      begins_one single.value rfl
    exact .after fun inner => emits_changing single (emits_result begins) rfl
      (begins.assigned single.value) listed_alone

theorem counted_substr : Native.substr.Counted := by
  intro call all
  have start {text offset : Fragment} (single : Single offset.value) : Ensures Single (do
      check text false
      check offset false
      offset.toInteger) :=
    .after fun _ => .after fun _ => .lift fun _ made => single_toNumberType _ single made
  have part {text : Fragment} {rest : String} {n : Nat} (single : Single text.value)
      (list : Listed (n + 1) rest) : Ensures (BeginsCall "Perl.substr" (n + 2)) (do
        return "Perl.substr(" ++ (← (liftM text.toText : Plain String)) ++ ", " ++ rest ++ ")") :=
    .lift_bind fun first made => .pure (begins_cons (single_toText single made) list rfl)
  change Post _ call.substr
  unfold substr
  refine .after fun position => ?_
  dsimp only
  split
  · next text offset is =>
    rw [is] at all ⊢
    simp only [List.forall_mem_cons, Native.Admits] at all
    refine .bind (start all.2.1.value) fun first one => ?_
    exact .bind (part all.1.value (.one one)) fun _ begins => .done (emits_result begins)
  · next text offset length is =>
    rw [is] at all ⊢
    simp only [List.forall_mem_cons, Native.Admits] at all
    refine .bind (start all.2.1.value) fun first one => .after fun _ => ?_
    refine .lift_bind fun second made => ?_
    have list : Listed 2 (first ++ ", " ++ second) :=
      .more (.one one) (single_toNumberType _ all.2.2.1.value made)
    exact .bind (part all.1.value list) fun _ begins => .done (emits_result begins)
  · next text offset length replacement is =>
    rw [is] at all ⊢
    simp only [List.forall_mem_cons, Native.Admits] at all
    refine .bind (start all.2.1.value) fun first one => .after fun _ => ?_
    refine .lift_bind fun second made => ?_
    refine .after fun _ => .lift_bind fun third made' => ?_
    have list : Listed 3 (first ++ ", " ++ second ++ ", " ++ third) :=
      .more (.more (.one one) (single_toNumberType _ all.2.2.1.value made))
        (single_toText all.2.2.2.1.value made')
    refine .bind (part all.1.value list) fun written begins => ?_
    exact emits_updating all.1.toIsSingle rfl rfl (begins.assigned all.1.value)
      fun argument one => .cons one list
  · exact emits_refuse

private theorem ensures_spliceOffset {target offset : Fragment} (single : offset.IsSingle) :
    Ensures (·.IsSingle) (spliceOffset target offset) := by
  refine .after fun head => .either (fun _ => .pure single) fun _ => .after fun _ => ?_
  exact .after fun shape => .bind (ensures_convert single shape) fun _ both => .pure both.2

private theorem ensures_spliceArguments {target offset : Fragment} {more : List Fragment}
    (few : more.length ≤ 2) (single : offset.IsSingle) (others : ∀ c ∈ more, IsArgument c) :
    Ensures (fun r => Listed (more.length + 1) r.1) (spliceArguments target offset more) := by
  unfold spliceArguments
  split
  · exact .lift_bind fun _ made => .pure (.one (single_toNumberType _ single.value made))
  · next length more =>
    simp only [List.forall_mem_cons] at others
    refine .lift_bind fun first made => .after fun _ => .lift_bind fun second made' => ?_
    have list : Listed 2 (first ++ ", " ++ second) :=
      .more (.one (single_toNumberType _ single.value made))
        (single_toNumberType _ others.1.value made')
    split
    · exact .pure list
    · next new rest =>
      obtain rfl : rest = [] := by simpa using few
      exact .after fun _ => .pure (.more list (others.2 new List.mem_cons_self).value)

theorem counted_splice : Native.splice.Counted := by
  intro call all
  change Post _ call.splice
  unfold splice
  refine .after fun position => ?_
  dsimp only
  split
  · next target offset more is =>
    rw [is] at all ⊢
    simp only [List.forall_mem_cons, Native.Admits] at all
    refine .either (fun _ => emits_refuse) fun few => .after fun _ => ?_
    refine .bind (ensures_spliceOffset all.2.1.toIsSingle) fun d single => ?_
    refine .after fun _ => .after fun _ => ?_
    refine .bind (ensures_spliceArguments (by simpa using few) single all.2.2) ?_
    rintro ⟨rest, declares⟩ list
    have calls : Calls "Perl.splice" (more.length + 2)
        (target.value ++ " = Perl.splice(" ++ target.value ++ ", " ++ rest ++ ")") := by
      have whole := @begins_cons "Perl.splice" "Perl.splice(" _ _ _ all.1.value list rfl
      rw [show " = Perl.splice(" = " = " ++ "Perl.splice(" from rfl]
      simpa only [String.append_assoc] using whole.assigned all.1.value
    exact emits_changing all.1.toIsSingle (emits_text calls rfl rfl) rfl calls fun _ one =>
      .cons one list
  · exact emits_refuse

/-! ### Sorting by a comparison -/

section Comparison

variable {comparison : Fragment} {type : String}

private theorem named_of_agrees {s t : Shape} (named : s.Named) (agree : s.agrees t = .ok true) :
    t.Named := by
  intro es parts e member
  obtain ⟨ds, parts', agree⟩ := bind_eq_ok.1 agree
  obtain ⟨_, found, agree⟩ := bind_eq_ok.1 agree
  obtain rfl := Except.ok.inj (parts.symm.trans found)
  have names := (dims_agree_iff (named ds parts')).1 (Except.ok.inj agree)
  have among : e.name? ∈ ds.map (·.name?) := names ▸ List.mem_map_of_mem member
  obtain ⟨d, inside, same⟩ := List.mem_map.1 among
  rw [← same]
  exact named ds parts' d inside

/-- A comparison is passed as one argument. -/
private theorem single_lambda {result : String} (isType : IsTypeText type) (single : Single result) :
    Single ("(" ++ type ++ " a," ++ type ++ " b) ->\x7b" ++ "return " ++ result ++ ";\x7d") := by
  obtain ⟨afterWord, read⟩ := isType ['(']
  have first : "(".toList.foldlM CodeReading.step {} = some ⟨['('], .code false⟩ := rfl
  have comma : " a,".toList.foldlM CodeReading.step ⟨['('], .code afterWord⟩
      = some ⟨['('], .code false⟩ := by
    cases afterWord <;> rfl
  have body : (" b) ->\x7b" ++ "return ").toList.foldlM CodeReading.step ⟨['('], .code afterWord⟩
      = some ⟨['{'], .code false⟩ := by
    cases afterWord <;> rfl
  have opens : ("(" ++ type ++ " a," ++ type ++ " b) ->\x7b" ++ "return ").toList.foldlM
      CodeReading.step {} = some ⟨['{'], .code false⟩ := by
    rw [String.append_assoc, String.toList_append, List.foldlM_append]
    simp only [String.toList_append, List.foldlM_append, first, read, comma, Option.bind_eq_bind,
      Option.bind_some] at body ⊢
    exact body
  exact single.enclosed opens (by decide) (by decide)

theorem ensures_sorted (all : ∀ c ∈ call.arguments, IsArgument c) :
    Ensures (fun r => ∀ c shape, r = .ok (c, shape) → call.arguments = [c] ∧ shape.Named)
      call.sorted? := by
  unfold sorted?
  split
  · next c is =>
    have argument := all c (by simp [is])
    refine .after fun head => .either (fun _ => .after fun level => ?_) fun _ => ?_
    split
    · refine .after fun v => .lift_bind fun inner dropped => .lift_bind fun agree agreed => ?_
      refine .either (fun same => .pure ?_) fun _ => .pure (by rintro _ _ ⟨⟩)
      rintro _ _ ⟨⟩
      rw [same] at agreed
      exact ⟨is, named_of_agrees (argument.named.tail dropped) agreed⟩
    · exact .pure (by rintro _ _ ⟨⟩)
    · exact .pure (by rintro _ _ ⟨⟩)
  · exact .pure (by rintro _ _ ⟨⟩)

theorem ensures_sortText (argument : IsArgument c) (single : comparison.IsSingle)
    (bare : comparison.declares = []) {shape : Shape} (named : shape.Named) :
    Ensures (fun r => BeginsCall "Perl.sort" 2 r.1) (sortText c comparison shape) := by
  have none : Ensures (· = "") (declarations comparison) := by
    rw [declarations, bare]
    exact .pure rfl
  refine .after fun _ => .after fun _ => .bind (ensures_unwrapped argument) fun d one => ?_
  refine .lift_bind fun type printed => .bind none ?_
  rintro _ rfl
  refine .lift_bind fun result made => .pure ?_
  obtain ⟨ds, parts, printed⟩ := bind_eq_ok.1 printed
  have isType := isTypeText_printDims (named ds parts) printed
  have compared := single_lambda isType (single_toNumberType _ single.value made)
  have calls := @begins_cons "Perl.sort" "Perl.sort(" _ _ _ one.value (.one compared) rfl
  dsimp only
  rw [show ", (" = ", " ++ "(" from rfl, show ";\x7d)" = ";\x7d" ++ ")" from rfl, String.append_empty]
  simpa only [String.append_assoc] using calls

/-- The comparison is passed as one more argument. -/
theorem emits_sortBy (all : ∀ c ∈ call.arguments, IsArgument c) (single : comparison.IsSingle)
    (bare : comparison.declares = []) {s s' : State} {code : Fragment}
    (run : call.sortBy comparison s = .ok code s') :
    Emits "Perl.sort" "Perl.sort" (call.arguments.length + 1) code s' := by
  unfold sortBy at run
  obtain ⟨sorted, s₁, found, run⟩ := M.cut run
  have known := ensures_sorted all s sorted s₁ found
  cases sorted with
  | error refusal =>
    refine .inl ?_
    cases refusal <;>
      · obtain ⟨_, _, reported, ⟨⟩⟩ := M.cut run
        exact ⟨rfl, rfl, report_failed rfl reported⟩
  | ok both =>
    obtain ⟨is, named⟩ := known _ _ rfl
    obtain ⟨⟨value, d⟩, s₂, written, run⟩ := M.cut run
    obtain ⟨_, s₃, _, run⟩ := M.cut run
    cases run
    rw [is]
    exact emits_result (ensures_sortText (all _ (by simp [is])) single bare named _ _ _ written) _

end Comparison

end NativeCall

/-! ### Calls of other functions -/

/-- A function that is not found has been reported. -/
private theorem post_calledFunction {name : String} {at_ : Position} {package : Option Package} :
    Post (fun found s => found = none → s.codeError = true) (calledFunction? name at_ package) := by
  have failed {m : Message} {names : Diagnostic.Names} (isError : m.isWarning = false)
      (found : Option Function) : Post (fun found s => found = none → s.codeError = true)
        (do if found.isNone then report m at_ names
            return found) := by
    cases found with
    | none => exact .reported isError fun _ failed _ => failed
    | some f => exact .done (by rintro _ ⟨⟩)
  cases package with
  | none => exact .after fun _ => failed rfl _
  | some p => exact failed rfl _

theorem emits_callFunction {name : String} {at_ : Position} {arguments : List Fragment}
    {package : Option Package} (all : ∀ c ∈ arguments, IsArgument c) :
    Post (Emits (package.elim "" (·.name ++ ".") ++ name)
      (package.elim "" (·.name ++ ".") ++ name) arguments.length)
      (callFunction name at_ arguments package) := by
  intro s code s' run
  obtain ⟨found, s₁, called, run⟩ := Plain.cut run
  cases found with
  | none =>
    cases run
    exact .inl ⟨rfl, rfl, post_calledFunction s _ _ called rfl⟩
  | some f =>
    refine (?_ : Post _ _) s₁ code s' run
    refine .either (fun _ => .reported rfl fun _ failed => .inl ⟨rfl, rfl, failed⟩) fun same => ?_
    have same : arguments.length = f.arguments.length := by simpa using same
    refine .bind (@Post.rounds _ _ _ (fun n r => Trailing n r.2) _ 0 _ (.inl ⟨rfl, rfl⟩) ?_) ?_
    · rintro ⟨c, shape⟩ member n r trailing
      have argument := all c (List.of_mem_zip member).1
      refine .after fun _ => .bind (ensures_unwrapped argument) fun d single => ?_
      exact .bind (ensures_converted single shape) fun text one => .pure ⟨_, rfl, trailing.next one⟩
    · intro r trailing
      rw [Nat.zero_add, List.length_zip, ← same, Nat.min_self] at trailing
      refine .either (fun _ => ?_) fun short => ?_
      · split <;> exact .done (emits_text (begins_list trailing.listed rfl).calls rfl rfl)
      · have list := trailing.listed_of_short short
        split <;> exact .done (emits_text (begins_list list rfl).calls rfl rfl)

/-! ### All calls -/

/-- A call in Perl: of a function that Perl provides, with a file to print to, with a comparison to
sort by, or of a function of the program. -/
inductive PerlCall where
  | native (f : Native) (call : NativeCall)
  | printTo (call : NativeCall) (file : Fragment)
  | sortBy (call : NativeCall) (comparison : Fragment)
  | own (name : String) (at_ : Position) (arguments : List Fragment) (package : Option Package)

namespace PerlCall

def translate : PerlCall → M Fragment
  | native f call => (f.translate call).run
  | printTo call file => (call.printTo file).run
  | sortBy call comparison => call.sortBy comparison
  | own name at_ arguments package => (callFunction name at_ arguments package).run

def arguments : PerlCall → List Fragment
  | native _ call | printTo call _ => call.arguments
  | sortBy call comparison => call.arguments ++ [comparison]
  | own _ _ arguments _ => arguments

def function : PerlCall → String
  | native f call => f.function call
  | printTo call file => file.value ++ "." ++ call.name
  | sortBy _ _ => "Perl.sort"
  | own name _ _ package => package.elim "" (·.name ++ ".") ++ name

def alone : PerlCall → String
  | native f call => f.alone call
  | k => k.function

/-- Every argument is one expression, and parentheses at its ends enclose one; a comparison needs no
declarations. -/
def Proper : PerlCall → Prop
  | native f call => ∀ c ∈ call.arguments, f.Admits c
  | printTo call _ => ∀ c ∈ call.arguments, IsArgument c
  | sortBy call comparison =>
    (∀ c ∈ call.arguments, IsArgument c) ∧ comparison.IsSingle ∧ comparison.declares = []
  | own _ _ arguments _ => ∀ c ∈ arguments, IsArgument c

open NativeCall

theorem counted (f : Native) : f.Counted := by
  cases f with
  | print => exact counted_print
  | split => exact counted_split
  | join => exact counted_join
  | keysOrValues => exact counted_keysOrValues
  | chop => exact counted_chop
  | defined => exact counted_defined
  | open_ => exact counted_open
  | close => exact counted_close
  | sort => exact counted_sort
  | onText type => exact counted_onText type
  | exit => exact counted_exit
  | substr => exact counted_substr
  | splice => exact counted_splice
  | push => exact counted_push
  | pop => exact counted_pop

theorem emits (k : PerlCall) (proper : k.Proper) {s s' : State} {code : Fragment}
    (run : k.translate s = .ok code s') : Emits k.function k.alone k.arguments.length code s' := by
  cases k with
  | native f call => exact counted f call proper s code s' run
  | printTo call file => exact emits_printTo proper s code s' run
  | sortBy call comparison =>
    rw [arguments, List.length_append]
    exact emits_sortBy proper.1 proper.2.1 proper.2.2 run
  | own name at_ arguments package => exact emits_callFunction proper s code s' run

end PerlCall

/-- Without the parentheses at its ends a text stays balanced, and an argument stays one, if and only
if they match. Where all arguments do, the call that is written has as many as the call in Perl. -/
theorem written_arguments_counted (c : Fragment) (k : PerlCall) (s s' : State) (code : Fragment) :
    (Balanced c.value → (Balanced c.stripParens.value ↔ EndsMatch c.value))
      ∧ (Single c.value → (Single c.stripParens.value ↔ EndsEnclose c.value))
      ∧ (k.Proper → k.translate s = .ok code s' →
        Emits k.function k.alone k.arguments.length code s') :=
  ⟨c.balanced_stripParens_iff, c.single_stripParens_iff, fun proper run => k.emits proper run⟩

/-- A class with a function `f` of two numbers. -/
def pairFunction : State :=
  { (default : State) with
    functions := .ofList [("f", {
      arguments := [.scalar .integer, .scalar .integer]
      results := [.scalar .integer] })] }

def integerCode (value : String) : Fragment :=
  { value, shape := .scalar .integer }

/-- A call with a product in parentheses. -/
def productCall : PerlCall :=
  .own "f" {} [integerCode "((v + 1) * w)", integerCode "3"] none

/-- A call with a product whose factors are in parentheses. -/
def factorsCall : PerlCall :=
  .own "f" {} [integerCode "(v + 1) * (w + 2)", integerCode "3"] none

/-- The parentheses around the product are left out. -/
theorem written_arguments_counted_product : ∃ code s',
    productCall.translate pairFunction = .ok code s'
    ∧ code.value = "f((v + 1) * w, 3)" ∧ Emits productCall.function productCall.alone 2 code s' := by
  have argument {value : String} (single : Single value)
      (stripped : Single (integerCode value).stripParens.value) : IsArgument (integerCode value) := by
    refine ⟨⟨single, (by rintro _ ⟨⟩), ?_⟩, (Fragment.single_stripParens_iff _ single).1 stripped⟩
    rintro _ ⟨⟩ d member
    obtain rfl := List.mem_singleton.1 member
    rfl
  have proper : productCall.Proper := List.forall_mem_cons.2 ⟨argument (by decide) (by decide),
    List.forall_mem_singleton.2 (argument (by decide) (by decide))⟩
  exact ⟨_, _, rfl, rfl, (written_arguments_counted {} productCall pairFunction _ _).2.2 proper rfl⟩

/-- Two factors in parentheses lose one each, and the call ends behind the first of them. -/
theorem factors_torn_apart : Balanced "(v + 1) * (w + 2)" ∧ Single "(v + 1) * (w + 2)"
    ∧ ¬Balanced (integerCode "(v + 1) * (w + 2)").stripParens.value
    ∧ ∃ code s', factorsCall.translate pairFunction = .ok code s'
      ∧ code.value = "f(" ++ "v + 1) * (w + 2, 3)" ∧ argumentCount "v + 1) * (w + 2, 3)" = some 1 :=
  ⟨by decide, by decide, by decide, _, _, rfl, rfl, by decide⟩

end PerlJava.Compile
