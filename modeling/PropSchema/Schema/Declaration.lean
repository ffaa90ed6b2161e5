/-
PropSchema.Schema.Declaration — reading declarations from tokens.

    schema     = { entry }
    entry      = "owner" ":" constant [sep]
               | "module" ":" string { string } [sep]
               | "prop" [":"] "{" { assignment } "}" [sep]
    assignment = field ":" value [sep]
    sep        = "," | ";"

Fields come in any order. Each but `prop` may occur once in its schema or
block; a second occurrence is an error at its name. Constants are given by name
or by place, booleans by one of a few words or by `1` and `0`, and strings by
one or more literals, whose values are concatenated.

A reader takes the tokens that are left, and the place where the text ends, for
messages about a token that is missing there.
-/
import PropSchema.Schema.Field
import PropSchema.Token.Basic

namespace PropSchema

/-! ## Errors -/

/-- What could have stood at a place. -/
inductive Expectation where
  | token (t : Token)
  | string
  | valueFor (field : String)
  deriving DecidableEq, Repr

/-- An expectation in messages. -/
def Expectation.text : Expectation → String
  | .token t => t.text
  | .string => "string"
  | .valueFor field => "value for \"" ++ field ++ "\""

/-- The two kinds of blocks, by the names that messages use. -/
inductive BlockKind where
  | schema
  | property
  deriving DecidableEq, Repr

/-- The name of a kind of block in messages. -/
def BlockKind.text : BlockKind → String
  | .schema => "sysprop.Properties"
  | .property => "sysprop.Property"

/-- Why tokens do not declare a schema. The token found is absent where the text
ends. -/
inductive SyntaxError where
  | unexpected (expected : Expectation) (found : Option Token) (position : Position)
  | expectedField (found : Token) (position : Position)
  | unknownField (block : BlockKind) (name : String) (position : Position)
  | repeatedField (name : String) (position : Position)
  | unknownConstant (value field : String) (position : Position)
  | badBoolean (found : Option Token) (field : String) (position : Position)
  | unterminatedBlock (opening : Position)
  deriving DecidableEq, Repr

namespace SyntaxError

/-- A token in the message about a boolean: a name stands in quotes there. -/
def booleanText : Option Token → String
  | some (.word name) => "\"" ++ name ++ "\""
  | found => Token.textOrEnd found

/-- The wording of a syntax error. -/
def message : SyntaxError → String
  | .unexpected expected found position =>
    "Expected " ++ expected.text ++ ", found " ++ Token.textOrEnd found ++ " at " ++ position.text
  | .expectedField found position =>
    "Expected field name, found " ++ found.text ++ " at " ++ position.text
  | .unknownField block name position =>
    "Message type \"" ++ block.text ++ "\" has no field named \"" ++ name ++ "\" at " ++
      position.text
  | .repeatedField name position =>
    "Non-repeated field \"" ++ name ++ "\" is specified multiple times at " ++ position.text
  | .unknownConstant value field position =>
    "Unknown enumeration value \"" ++ value ++ "\" for field \"" ++ field ++ "\" at " ++
      position.text
  | .badBoolean found field position =>
    "Invalid value " ++ booleanText found ++ " for boolean field \"" ++ field ++ "\" at " ++
      position.text
  | .unterminatedBlock opening => "Unterminated prop block starting at " ++ opening.text

end SyntaxError

/-- A value read from the front of the tokens, and the tokens left. -/
abbrev Reading (α : Type) : Type :=
  Except SyntaxError (α × List Located)

/-! ## Values -/

/-- The place of the next token. -/
def nextPosition (finish : Position) : List Located → Position
  | [] => finish
  | t :: _ => t.position

/-- The error that something else than the next token was expected. -/
def unexpectedNext (finish : Position) (expected : Expectation) (ts : List Located) : SyntaxError :=
  .unexpected expected (ts.head?.map Located.token) (nextPosition finish ts)

/-- The tokens after the given one, which has to come next. -/
def expect (finish : Position) (t : Token) : List Located → Except SyntaxError (List Located)
  | [] => .error (unexpectedNext finish (.token t) [])
  | next :: ts =>
    if next.token = t then .ok ts else .error (unexpectedNext finish (.token t) (next :: ts))

/-- The tokens after the given one, if it comes next, and all of them if not. -/
def dropIf (t : Token) : List Located → List Located
  | [] => []
  | next :: ts => if next.token = t then ts else next :: ts

/-- The tokens after at most one separator. -/
def skipSeparator : List Located → List Located
  | [] => []
  | next :: ts => if next.token = .comma ∨ next.token = .semicolon then ts else next :: ts

/-- The values of the string literals that come next, up to the first other
token. -/
def literals : List Located → List String × List Located
  | ⟨.string value, _⟩ :: ts =>
    let (values, rest) := literals ts
    (value :: values, rest)
  | ts => ([], ts)

/-- A colon and one or more string literals. -/
def readString (finish : Position) (ts : List Located) : Reading String :=
  match expect finish .colon ts with
  | .error e => .error e
  | .ok ts =>
    match literals ts with
    | ([], _) => .error (unexpectedNext finish .string ts)
    | (values, rest) => .ok (String.join values, rest)

/-- A colon and a constant of a vocabulary. -/
def readConstant {α : Type} [Vocabulary α] (finish : Position) (field : String)
    (ts : List Located) : Reading α :=
  match expect finish .colon ts with
  | .error e => .error e
  | .ok ts =>
    match ts with
    | ⟨.word name, position⟩ :: rest =>
      match Vocabulary.ofName? name with
      | some c => .ok (c, rest)
      | none => .error (.unknownConstant name field position)
    | ⟨.integer i, position⟩ :: rest =>
      match Vocabulary.ofIndex? i with
      | some c => .ok (c, rest)
      | none => .error (.unknownConstant (Number.signedDecimalText i) field position)
    | ts => .error (unexpectedNext finish (.valueFor field) ts)

/-- The boolean that a token denotes. -/
def booleanOf? : Token → Option Bool
  | .word name =>
    if name = "true" ∨ name = "True" ∨ name = "t" then some true
    else if name = "false" ∨ name = "False" ∨ name = "f" then some false
    else none
  | .integer i => if i = 1 then some true else if i = 0 then some false else none
  | _ => none

/-- A colon and a boolean. -/
def readBoolean (finish : Position) (field : String) (ts : List Located) : Reading Bool :=
  match expect finish .colon ts with
  | .error e => .error e
  | .ok [] => .error (.badBoolean none field finish)
  | .ok (next :: rest) =>
    match booleanOf? next.token with
    | some b => .ok (b, rest)
    | none => .error (.badBoolean (some next.token) field next.position)

/-! ## Property blocks -/

/-- The value of a field of a property block. -/
def readAssignment (finish : Position) (f : PropertyField) (ts : List Located) :
    Reading Assignment :=
  match f with
  | .apiName => (readString finish ts).map fun (value, rest) => (.apiName value, rest)
  | .propName => (readString finish ts).map fun (value, rest) => (.propName value, rest)
  | .enumValues => (readString finish ts).map fun (value, rest) => (.enumValues value, rest)
  | .type => (readConstant finish f.name ts).map fun (value, rest) => (.type value, rest)
  | .access => (readConstant finish f.name ts).map fun (value, rest) => (.access value, rest)
  | .scope => (readConstant finish f.name ts).map fun (value, rest) => (.scope value, rest)
  | .integerAsBool =>
    (readBoolean finish f.name ts).map fun (value, rest) => (.integerAsBool value, rest)

/-! ## Progress

Every reader leaves no more tokens than it was given, which is why the loops
below end. -/

theorem length_expect {finish : Position} {t : Token} {ts rest : List Located}
    (h : expect finish t ts = .ok rest) : rest.length < ts.length := by
  cases ts with
  | nil => simp [expect] at h
  | cons next ts =>
    simp only [expect] at h
    split at h
    · simp only [Except.ok.injEq] at h
      simp [h]
    · simp at h

theorem length_dropIf (t : Token) (ts : List Located) : (dropIf t ts).length ≤ ts.length := by
  cases ts with
  | nil => simp [dropIf]
  | cons next ts =>
    simp only [dropIf]
    split <;> simp

theorem length_skipSeparator (ts : List Located) : (skipSeparator ts).length ≤ ts.length := by
  cases ts with
  | nil => simp [skipSeparator]
  | cons next ts =>
    simp only [skipSeparator]
    split <;> simp

theorem length_literals (ts : List Located) : (literals ts).2.length ≤ ts.length := by
  fun_induction literals ts with
  | case1 value position ts values rest h ih =>
    rw [h] at ih
    exact Nat.le_succ_of_le ih
  | case2 => exact Nat.le_refl _

theorem length_readString {finish : Position} {ts rest : List Located} {value : String}
    (h : readString finish ts = .ok (value, rest)) : rest.length < ts.length := by
  unfold readString at h
  split at h
  · simp at h
  · rename_i ts' he
    have h1 := length_expect he
    have h2 := length_literals ts'
    split at h
    · simp at h
    · rename_i values rest' hl
      simp only [Except.ok.injEq, Prod.mk.injEq] at h
      rw [hl] at h2
      rw [← h.2]
      simp only at h2
      omega

theorem length_readConstant {α : Type} [Vocabulary α] {finish : Position} {field : String}
    {ts rest : List Located} {c : α} (h : readConstant finish field ts = .ok (c, rest)) :
    rest.length < ts.length := by
  unfold readConstant at h
  split at h
  · simp at h
  · rename_i ts' he
    have h1 := length_expect he
    split at h
    · split at h
      · simp only [Except.ok.injEq, Prod.mk.injEq] at h
        simp only [List.length_cons, h.2] at h1
        omega
      · simp at h
    · split at h
      · simp only [Except.ok.injEq, Prod.mk.injEq] at h
        simp only [List.length_cons, h.2] at h1
        omega
      · simp at h
    · simp at h

theorem length_readBoolean {finish : Position} {field : String} {ts rest : List Located}
    {b : Bool} (h : readBoolean finish field ts = .ok (b, rest)) : rest.length < ts.length := by
  unfold readBoolean at h
  split at h
  · simp at h
  · simp at h
  · rename_i next rest' he
    have h1 := length_expect he
    split at h
    · simp only [Except.ok.injEq, Prod.mk.injEq] at h
      simp only [List.length_cons, h.2] at h1
      omega
    · simp at h

theorem of_map_pair {ε α β γ : Type} {r : Except ε (α × γ)} {f : α → β} {b : β} {c : γ}
    (h : (r.map fun (a, c) => (f a, c)) = .ok (b, c)) : ∃ a, r = .ok (a, c) ∧ f a = b := by
  cases r with
  | error e => simp [Except.map] at h
  | ok p =>
    obtain ⟨a, c'⟩ := p
    simp only [Except.map, Except.ok.injEq, Prod.mk.injEq] at h
    exact ⟨a, by rw [h.2], h.1⟩

/-- An assignment takes at least its colon. -/
theorem length_readAssignment {finish : Position} {f : PropertyField} {ts rest : List Located}
    {a : Assignment} (h : readAssignment finish f ts = .ok (a, rest)) :
    rest.length < ts.length := by
  cases f with
  | apiName => obtain ⟨_, hr, _⟩ := of_map_pair h; exact length_readString hr
  | propName => obtain ⟨_, hr, _⟩ := of_map_pair h; exact length_readString hr
  | enumValues => obtain ⟨_, hr, _⟩ := of_map_pair h; exact length_readString hr
  | type => obtain ⟨_, hr, _⟩ := of_map_pair h; exact length_readConstant hr
  | access => obtain ⟨_, hr, _⟩ := of_map_pair h; exact length_readConstant hr
  | scope => obtain ⟨_, hr, _⟩ := of_map_pair h; exact length_readConstant hr
  | integerAsBool => obtain ⟨_, hr, _⟩ := of_map_pair h; exact length_readBoolean hr

/-! ## Sequences -/

set_option linter.unusedVariables false in
/-- The assignments of a block from behind its brace up to and including the
closing one, none of them for a field already seen. -/
def readBlock (finish opening : Position) (seen : List PropertyField) :
    List Located → Reading (List Assignment)
  | [] => .error (.unterminatedBlock opening)
  | next :: ts =>
    match next.token with
    | .closeBrace => .ok ([], ts)
    | .word name =>
      match PropertyField.ofName? name with
      | none => .error (.unknownField .property name next.position)
      | some f =>
        if f ∈ seen then .error (.repeatedField name next.position)
        else
          match h : readAssignment finish f ts with
          | .error e => .error e
          | .ok (a, rest) =>
            (readBlock finish opening (f :: seen) (skipSeparator rest)).map
              fun (as, rest) => (a :: as, rest)
    | other => .error (.expectedField other next.position)
termination_by ts => ts.length
decreasing_by
  have h1 := length_readAssignment h
  have h2 := length_skipSeparator rest
  simp only [List.length_cons]
  omega

/-- The block of a property: an optional colon, and assignments in braces. -/
def readProperty (finish : Position) (ts : List Located) : Reading (List Assignment) :=
  let ts := dropIf .colon ts
  match expect finish .openBrace ts with
  | .error e => .error e
  | .ok rest => readBlock finish (nextPosition finish ts) [] rest

/-- The value of a field of a schema. -/
def readEntry (finish : Position) (f : SchemaField) (ts : List Located) : Reading Entry :=
  match f with
  | .owner => (readConstant finish f.name ts).map fun (value, rest) => (.owner value, rest)
  | .modulePath => (readString finish ts).map fun (value, rest) => (.modulePath value, rest)
  | .property => (readProperty finish ts).map fun (value, rest) => (.property value, rest)

theorem length_readBlock {finish opening : Position} {seen : List PropertyField}
    {ts rest : List Located} {as : List Assignment}
    (h : readBlock finish opening seen ts = .ok (as, rest)) : rest.length < ts.length := by
  induction hn : ts.length using Nat.strongRecOn generalizing ts seen as with
  | _ n ih =>
    cases ts with
    | nil => simp [readBlock] at h
    | cons next ts =>
      rw [readBlock] at h
      simp only [List.length_cons] at hn
      split at h
      · simp only [Except.ok.injEq, Prod.mk.injEq] at h
        rw [← h.2]
        omega
      · split at h
        · simp at h
        · rename_i f _
          split at h
          · simp at h
          · split at h
            · simp at h
            · rename_i a rest' ha
              have h1 := length_readAssignment ha
              have h2 := length_skipSeparator rest'
              obtain ⟨as', hr, _⟩ := of_map_pair h
              have := ih (skipSeparator rest').length (by omega) hr rfl
              omega
      · simp at h

theorem length_readProperty {finish : Position} {ts rest : List Located} {as : List Assignment}
    (h : readProperty finish ts = .ok (as, rest)) : rest.length < ts.length := by
  simp only [readProperty] at h
  have h1 := length_dropIf .colon ts
  split at h
  · simp at h
  · rename_i he
    have h2 := length_expect he
    have h3 := length_readBlock h
    omega

/-- An entry takes at least its colon or its braces. -/
theorem length_readEntry {finish : Position} {f : SchemaField} {ts rest : List Located}
    {e : Entry} (h : readEntry finish f ts = .ok (e, rest)) : rest.length < ts.length := by
  cases f with
  | owner => obtain ⟨_, hr, _⟩ := of_map_pair h; exact length_readConstant hr
  | modulePath => obtain ⟨_, hr, _⟩ := of_map_pair h; exact length_readString hr
  | property => obtain ⟨_, hr, _⟩ := of_map_pair h; exact length_readProperty hr

set_option linter.unusedVariables false in
/-- The entries of a schema up to the end, none of them for a field already seen
unless that may be repeated. -/
def readEntries (finish : Position) (seen : List SchemaField) :
    List Located → Except SyntaxError (List Entry)
  | [] => .ok []
  | next :: ts =>
    match next.token with
    | .word name =>
      match SchemaField.ofName? name with
      | none => .error (.unknownField .schema name next.position)
      | some f =>
        if !f.isRepeatable && f ∈ seen then .error (.repeatedField name next.position)
        else
          match h : readEntry finish f ts with
          | .error e => .error e
          | .ok (entry, rest) =>
            (readEntries finish (f :: seen) (skipSeparator rest)).map (entry :: ·)
    | other => .error (.expectedField other next.position)
termination_by ts => ts.length
decreasing_by
  have h1 := length_readEntry h
  have h2 := length_skipSeparator rest
  simp only [List.length_cons]
  omega

/-- The schema that a token sequence declares. -/
def Schema.ofTokens (tokens : TokenSequence) : Except SyntaxError Schema :=
  (readEntries tokens.finish [] tokens.items).map Schema.ofEntries

end PropSchema
