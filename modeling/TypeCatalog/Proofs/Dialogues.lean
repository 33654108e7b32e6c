import TypeCatalog.Proofs.SymbolLookup
import TypeCatalog.Session.Dialogue
import TypeCatalog.Session.Query

/-!
# Dialogues and queries

A name is answered in a dialogue as a query answers it. Of what was typed before, only the last
command that went to a scope counts. The names before count for nothing, whether they were found or
not.
-/

namespace TypeCatalog

/-! ## Lines -/

theorem Text.head?_trim {cs : List Char} {c : Char} (h : (trim cs).head? = some c) :
    isBlank c = false := by
  -- What is left at the front is the front of the text without the blanks there.
  have hprefix : trim cs <+: cs.dropWhile isBlank := by
    rw [trim, ← List.reverse_suffix, List.reverse_reverse]
    exact List.dropWhile_suffix _
  obtain ⟨rest, hrest⟩ := hprefix
  have hblank := List.head?_dropWhile_not isBlank cs
  rw [← hrest, List.head?_append, h] at hblank
  simpa using hblank

namespace Dialogue

/-- The first word of a line. -/
def word (line : List Char) : String := String.ofList (Text.cutAtBlank (Text.trim line)).1

/-- What follows the first word of a line. -/
def argument (line : List Char) : String :=
  String.ofList (Text.trim (Text.cutAtBlank (Text.trim line)).2)

/-- The line ends the dialogue. -/
def Quits (line : List Char) : Prop := word line = ".quit" ∨ word line = ".q"

instance (line : List Char) : Decidable (Quits line) := inferInstanceAs (Decidable (_ ∨ _))

/-- The line is neither blank nor a command. -/
def IsName (line : List Char) : Prop := ∃ c, (Text.trim line).head? = some c ∧ c ≠ '.'

/-- The scope that a line goes to, by the name that the line gives it. -/
def entered? (s : Session) (line : List Char) : Option String :=
  if word line = ".scope" ∧ argument line ≠ "" ∧ (s.scopeNamed? (argument line)).isSome then
    some (argument line)
  else none

variable {line : List Char}

theorem ofLine_trim_name (name : IsName line) :
    Command.ofLine (Text.trim line) = .evaluate (String.ofList (Text.trim line)) := by
  obtain ⟨c, hc, hpoint⟩ := name
  -- The first word begins as the line does.
  have hword : (Text.cutAtBlank (Text.trim line)).1.head? = some c := by
    rw [Text.cutAtBlank, List.head?_takeWhile, hc]
    simp [Text.head?_trim hc]
  have hcommand : ∀ w : String, w.toList.head? = some '.' →
      String.ofList (Text.cutAtBlank (Text.trim line)).1 ≠ w := by
    rintro w hw rfl
    rw [String.toList_ofList, hword, Option.some.injEq] at hw
    exact hpoint hw
  unfold Command.ofLine
  simp only
  split
  case h_7 => rw [if_neg (by rw [hword, Option.some.injEq]; exact hpoint)]
  all_goals
    next hw => exact absurd hw (hcommand _ (by decide))

theorem quits_of_ofLine (h : Command.ofLine (Text.trim line) = .quit) : Quits line := by
  unfold Command.ofLine at h
  simp only at h
  split at h
  case h_1 hw => exact .inl hw
  case h_2 hw => exact .inr hw
  case h_4 => split at h <;> cases h
  case h_7 => split at h <;> cases h
  all_goals cases h

theorem ofLine_of_scope (h : word line = ".scope") : Command.ofLine (Text.trim line) =
    if argument line = "" then .showScope else .enter (argument line) := by
  have hempty : argument line = "" ↔ Text.trim (Text.cutAtBlank (Text.trim line)).2 = [] := by
    rw [argument, String.ofList_eq_empty_iff]
  unfold word at h
  simp only [Command.ofLine, h, hempty]
  rfl

theorem word_of_ofLine {name : String} (h : Command.ofLine (Text.trim line) = .enter name) :
    word line = ".scope" := by
  unfold Command.ofLine at h
  simp only at h
  split at h
  case h_4 hw => exact hw
  case h_7 => split at h <;> cases h
  all_goals cases h

theorem entered?_eq (s : Session) (line : List Char) :
    entered? s line =
      match Command.ofLine (Text.trim line) with
      | .enter name => if (s.scopeNamed? name).isSome then some name else none
      | _ => none := by
  unfold entered?
  by_cases hscope : word line = ".scope"
  · rw [ofLine_of_scope hscope]
    by_cases hempty : argument line = ""
    · simp [hempty]
    · simp [hscope, hempty]
  · rw [if_neg fun h => hscope h.1]
    split
    · next hline => exact absurd (word_of_ofLine hline) hscope
    · rfl

end Dialogue

/-! ## Work that does not depend on the lookups before it -/

namespace Session

variable {s : Session} {α β : Type}

/-- The work gives `a`, whatever was looked up before. -/
def Gives (s : Session) (work : LookupM SymbolTable α) (a : α) : Prop :=
  ∀ state : Lookups SymbolTable,
    state.AsksTable s.symbols s.symbols chain s.settings.lookup.maxDepth →
      (work.run state).1 = a ∧
        (work.run state).2.AsksTable s.symbols s.symbols chain s.settings.lookup.maxDepth

theorem gives_pure (a : α) : s.Gives (pure a) a := fun _ asks => ⟨rfl, asks⟩

theorem Gives.bind {work : LookupM SymbolTable α} {next : α → LookupM SymbolTable β} {a : α} {b : β}
    (first : s.Gives work a) (second : s.Gives (next a) b) : s.Gives (work >>= next) b := by
  intro state asks
  obtain ⟨ha, hasks⟩ := first state asks
  have hrun : (work >>= next).run state = (next (work.run state).1).run (work.run state).2 := rfl
  rw [hrun, ha]
  exact second _ hasks

theorem Gives.opened {work : LookupM SymbolTable α} {a : α} (h : s.Gives work a) :
    (work.run s.lookups).1 = a :=
  (h s.lookups s.lookups_asksTable).1

section Untimed

variable (untimed : s.settings.lookup.timeoutMs = none)

include untimed

theorem lookup_gives (name : String) :
    s.Gives (s.lookup name) (s.symbols.answer s.settings.lookup.maxDepth name) := by
  intro state asks
  rw [lookup, untimed]
  exact Lookups.run_lookup asks name

theorem evaluateNext_gives (scope : ScopeId) (name : String) :
    s.Gives (s.evaluateNext scope name) (s.evaluate scope name) := by
  have hsome : ∃ found, s.Gives (s.evaluateNext scope name) found := by
    unfold evaluateNext
    cases s.catalog.scopes.resolvePath? scope name with
    | some member => exact ⟨_, gives_pure _⟩
    | none =>
      have hlookup := lookup_gives untimed name
      cases hanswer : s.symbols.answer s.settings.lookup.maxDepth name with
      | ok v =>
        rw [hanswer] at hlookup
        exact ⟨.ok (.value (s.formatValue v)), hlookup.bind (gives_pure _)⟩
      | error fault =>
        rw [hanswer] at hlookup
        exact ⟨.error fault, hlookup.bind (gives_pure _)⟩
  obtain ⟨found, hfound⟩ := hsome
  rw [evaluate, hfound.opened]
  exact hfound

end Untimed

end Session

namespace Dialogue

variable {s : Session}

/-! ## Turns -/

/-- What is written for a name. -/
def reply (s : Session) (scope : ScopeId) (name : String) : String :=
  match s.evaluate scope name with
  | .ok found => Text.line found.text
  | .error fault => Text.line ("error: " ++ fault.message)

/-- The scope after a line. -/
def went (s : Session) (scope : ScopeId) (line : List Char) : ScopeId :=
  ((entered? s line).bind s.scopeNamed?).getD scope

theorem scopeNamed?_went {scope : ScopeId} {name : String} (named : s.scopeNamed? name = some scope)
    (line : List Char) :
    s.scopeNamed? ((entered? s line).getD name) = some (went s scope line) := by
  unfold went
  cases hentered : entered? s line with
  | none => exact named
  | some other =>
    have hsome : (s.scopeNamed? other).isSome := by
      unfold entered? at hentered
      split at hentered
      · next h =>
        obtain rfl := Option.some.inj hentered
        exact h.2.2
      · cases hentered
    obtain ⟨scope', hscope'⟩ := Option.isSome_iff_exists.1 hsome
    rw [Option.getD_some, Option.bind_some, hscope', Option.getD_some]

section Untimed

variable (untimed : s.settings.lookup.timeoutMs = none)

include untimed

theorem evaluated_gives (scope : ScopeId) (name : String) :
    s.Gives (evaluated s scope name) (reply s scope name) := by
  refine (Session.evaluateNext_gives untimed scope name).bind ?_
  unfold reply
  cases s.evaluate scope name with
  | ok found => exact Session.gives_pure _
  | error fault => exact Session.gives_pure _

theorem obey_gives (scope : ScopeId) (command : Command) :
    ∃ text, s.Gives (obey s scope command) ⟨text,
      match command with
      | .quit => none
      | .enter name => some ((s.scopeNamed? name).getD scope)
      | _ => some scope⟩ := by
  cases command with
  | quit | help | showScope | listTypes | listSymbols | unknown => exact ⟨_, Session.gives_pure _⟩
  | enter name =>
    simp only [obey]
    cases s.scopeNamed? name with
    | none => exact ⟨_, Session.gives_pure _⟩
    | some scope' => exact ⟨_, Session.gives_pure _⟩
  | evaluate name => exact ⟨_, (evaluated_gives untimed scope name).bind (Session.gives_pure _)⟩

theorem turn_gives (scope : ScopeId) (line : List Char) :
    ∃ t, s.Gives (turn s scope line) t ∧ (¬Quits line → t.next = some (went s scope line)) := by
  unfold turn
  split
  · next hblank =>
    have hstays : entered? s line = none := by
      rw [entered?_eq, hblank]
      rfl
    refine ⟨_, Session.gives_pure _, fun _ => ?_⟩
    rw [went, hstays, Option.bind_none, Option.getD_none]
  · obtain ⟨text, htext⟩ := obey_gives untimed scope (Command.ofLine (Text.trim line))
    refine ⟨_, htext, fun hgoes => ?_⟩
    rw [went, entered?_eq]
    cases hcommand : Command.ofLine (Text.trim line) with
    | quit => exact absurd (quits_of_ofLine hcommand) hgoes
    | enter name => cases hnamed : s.scopeNamed? name <;> simp [hnamed]
    | help | showScope | listTypes | listSymbols | unknown | evaluate => rfl

theorem turn_gives_reply (scope : ScopeId) {line : List Char} (name : IsName line) :
    s.Gives (turn s scope line)
      ⟨reply s scope (String.ofList (Text.trim line)), some scope⟩ := by
  unfold turn
  split
  · next hblank =>
    obtain ⟨c, hc, -⟩ := name
    rw [hblank] at hc
    cases hc
  · rw [ofLine_trim_name name]
    exact (evaluated_gives untimed scope _).bind (Session.gives_pure _)

end Untimed

/-! ## What a dialogue comes to -/

/-- What is written for lines of input in a dialogue that begins in a scope. -/
def told (s : Session) (scope : ScopeId) (lines : List (List Char)) : String :=
  ((converse s scope lines).run s.lookups).1

section Untimed

variable (untimed : s.settings.lookup.timeoutMs = none)

include untimed

theorem converse_gives (scope : ScopeId) (lines : List (List Char)) :
    s.Gives (converse s scope lines) (told s scope lines) := by
  have hsome : ∃ text, s.Gives (converse s scope lines) text := by
    induction lines generalizing scope with
    | nil => exact ⟨_, Session.gives_pure _⟩
    | cons line rest ih =>
      obtain ⟨⟨text, next⟩, hturn, -⟩ := turn_gives untimed scope line
      cases next with
      | none => exact ⟨_, hturn.bind (Session.gives_pure _)⟩
      | some scope' =>
        obtain ⟨more, hmore⟩ := ih scope'
        exact ⟨_, hturn.bind (hmore.bind (Session.gives_pure _))⟩
  obtain ⟨text, htext⟩ := hsome
  rw [told, htext.opened]
  exact htext

theorem told_cons {scope scope' : ScopeId} {line : List Char} {text : String}
    (first : s.Gives (turn s scope line) ⟨text, some scope'⟩) (rest : List (List Char)) :
    told s scope (line :: rest) = s.settings.repl.prompt ++ text ++ told s scope' rest := by
  have hline : s.Gives (converse s scope (line :: rest))
      (s.settings.repl.prompt ++ text ++ told s scope' rest) :=
    first.bind ((converse_gives untimed scope' rest).bind (Session.gives_pure _))
  exact hline.opened

theorem told_prompt (scope : ScopeId) (lines : List (List Char)) :
    ∃ rest, told s scope lines = s.settings.repl.prompt ++ rest := by
  cases lines with
  | nil => exact ⟨_, rfl⟩
  | cons line rest =>
    obtain ⟨⟨text, next⟩, hturn, -⟩ := turn_gives untimed scope line
    cases next with
    | none =>
      have hline : s.Gives (converse s scope (line :: rest)) (s.settings.repl.prompt ++ text) :=
        hturn.bind (Session.gives_pure _)
      exact ⟨text, hline.opened⟩
    | some scope' =>
      refine ⟨text ++ told s scope' rest, ?_⟩
      rw [told_cons untimed hturn, String.append_assoc]

/-- Lines that do not end the dialogue are answered whatever comes after them. -/
theorem told_append {lines : List (List Char)} (goes : ∀ line ∈ lines, ¬Quits line)
    {scope : ScopeId} {name : String} (named : s.scopeNamed? name = some scope) :
    ∃ head scope',
      s.scopeNamed? ((lines.filterMap (entered? s)).getLast?.getD name) = some scope' ∧
        ∀ rest, told s scope (lines ++ rest) = head ++ told s scope' rest := by
  induction lines generalizing scope name with
  | nil => exact ⟨"", scope, named, fun rest => by rw [List.nil_append, String.empty_append]⟩
  | cons line lines ih =>
    rw [List.forall_mem_cons] at goes
    obtain ⟨⟨text, next⟩, hturn, hnext⟩ := turn_gives untimed scope line
    obtain rfl : next = some (went s scope line) := hnext goes.1
    obtain ⟨head, scope', hnamed, hrest⟩ := ih goes.2 (scopeNamed?_went named line)
    refine ⟨s.settings.repl.prompt ++ text ++ head, scope', ?_, fun rest => ?_⟩
    · rw [← hnamed]
      cases hentered : entered? s line with
      | none => rw [List.filterMap_cons_none hentered, Option.getD_none]
      | some other =>
        rw [List.filterMap_cons_some hentered, List.getLast?_cons, Option.getD_some,
          Option.getD_some]
    · rw [List.cons_append, told_cons untimed hturn, hrest]
      simp only [String.append_assoc]

end Untimed

/-! ## The answer to a name -/

/-- What a dialogue writes where a query has this answer. -/
inductive Shows : Except QueryFault String → String → Prop
  | answer (text : String) : Shows (.ok text) text
  | fault (fault : LookupFault) :
      Shows (.error (.lookup fault)) (Text.line ("error: " ++ fault.message))

/-- The name of the scope that a dialogue begins in. -/
def initialName (s : Session) (asked : Option String) : String :=
  let name := asked.getD s.settings.repl.initialScope
  if (s.scopeNamed? name).isSome then name else "::"

/-- The name of the scope after lines of input: the last that one of them went to. -/
def scopeName (s : Session) (asked : Option String) (lines : List (List Char)) : String :=
  (lines.filterMap (entered? s)).getLast?.getD (initialName s asked)

theorem scopeNamed?_initialName (s : Session) (asked : Option String) :
    s.scopeNamed? (initialName s asked) = some (initialScope s asked) := by
  simp only [initialName, initialScope]
  split
  · next hknown =>
    obtain ⟨scope, hscope⟩ := Option.isSome_iff_exists.1 hknown
    rw [hscope, Option.getD_some]
  · next hunknown =>
    rw [Option.not_isSome_iff_eq_none.1 hunknown]
    rfl

theorem shows_reply {scope : ScopeId} {scopeName : String}
    (named : s.scopeNamed? scopeName = some scope) (name : String) :
    Shows (s.query scopeName name) (reply s scope name) := by
  simp only [Session.query, reply, named]
  cases s.evaluate scope name with
  | ok found => exact .answer _
  | error fault => exact .fault fault

/-- A name in a dialogue is answered as a query for it is, in the scope gone to last. The rest of
the dialogue is what it would be without the name. -/
theorem names_are_answered_as_queries (d : Dictionary) (settings : Settings)
    (untimed : settings.lookup.timeoutMs = none) (asked : Option String) (input : String)
    {before after : List (List Char)} {line : List Char}
    (lines : linesOf input.toList = before ++ line :: after) (goes : ∀ l ∈ before, ¬Quits l)
    (name : IsName line) :
    let s := Session.ofDictionary d settings
    ∃ head text rest,
      record s asked before = head ++ settings.repl.prompt ++ "\n" ∧
        record s asked (before ++ after) = head ++ settings.repl.prompt ++ rest ∧
        transcript s asked input =
          head ++ settings.repl.prompt ++ text ++ settings.repl.prompt ++ rest ∧
        Shows (s.query (scopeName s asked before) (String.ofList (Text.trim line))) text := by
  intro s
  have hrecord : ∀ lines, record s asked lines = banner s ++ told s (initialScope s asked) lines :=
    fun _ => rfl
  obtain ⟨head, scope, hnamed, htold⟩ :=
    told_append (s := s) untimed goes (scopeNamed?_initialName s asked)
  obtain ⟨rest, hrest⟩ := told_prompt (s := s) untimed scope after
  have hname := told_cons (s := s) untimed (turn_gives_reply untimed scope name) after
  refine ⟨banner s ++ head, reply s scope (String.ofList (Text.trim line)), rest, ?_, ?_, ?_,
    shows_reply hnamed _⟩
  · have hend : told s scope [] = settings.repl.prompt ++ "\n" := rfl
    have hbefore := htold []
    rw [List.append_nil] at hbefore
    rw [hrecord, hbefore, hend]
    simp only [String.append_assoc]
  · rw [hrecord, htold, hrest]
    simp only [String.append_assoc]
    rfl
  · rw [transcript, lines, hrecord, htold, hname, hrest]
    simp only [String.append_assoc]
    rfl

/-- A name for a symbol, and in a namespace for a type. -/
def measures : Dictionary where
  name := "measures"
  declarations := [.fundamental "int" 4, .classType .struct "si::m" none 8]
  symbols := [⟨"m", "int", .number (.natural 7)⟩]

def measuring : Session := .ofDictionary measures .default

/-- Into the namespace, with a name that is not found. -/
def intoScope : List (List Char) := ["m".toList, ".scope si".toList, "inch".toList]

theorem m_is_answered_in_its_scope :
    (linesOf "m\n.scope si\ninch\n m \n.scope".toList =
        intoScope ++ " m ".toList :: [".scope".toList] ∧
      (∀ l ∈ intoScope, ¬Quits l) ∧ IsName " m ".toList) ∧
      measuring.query "si" "m" = .ok "struct si::m (0 members, 8 bytes)\n" ∧
      ∃ head rest,
        record measuring none intoScope = head ++ "reflex> " ++ "\n" ∧
          transcript measuring none "m\n.scope si\ninch\n m \n.scope" =
            head ++ "reflex> " ++ "struct si::m (0 members, 8 bytes)\n" ++ "reflex> " ++ rest := by
  have hlines : linesOf "m\n.scope si\ninch\n m \n.scope".toList =
      intoScope ++ " m ".toList :: [".scope".toList] := by decide +kernel
  have hgoes : ∀ l ∈ intoScope, ¬Quits l := by decide +kernel
  have hname : IsName " m ".toList := ⟨'m', by decide +kernel, by decide⟩
  have hscope : scopeName measuring none intoScope = "si" := by decide +kernel
  have htrimmed : String.ofList (Text.trim " m ".toList) = "m" := by decide +kernel
  have hquery : measuring.query "si" "m" = .ok "struct si::m (0 members, 8 bytes)\n" := by
    decide +kernel
  refine ⟨⟨hlines, hgoes, hname⟩, hquery, ?_⟩
  obtain ⟨head, text, rest, hbefore, -, htranscript, hanswer⟩ :=
    names_are_answered_as_queries measures .default rfl none _ hlines hgoes hname
  change record measuring none intoScope = head ++ "reflex> " ++ "\n" at hbefore
  change transcript measuring none _ = head ++ "reflex> " ++ text ++ "reflex> " ++ rest
    at htranscript
  change Shows (measuring.query (scopeName measuring none intoScope) _) text at hanswer
  rw [hscope, htrimmed, hquery] at hanswer
  cases hanswer
  exact ⟨head, rest, hbefore, htranscript⟩

end Dialogue

end TypeCatalog
