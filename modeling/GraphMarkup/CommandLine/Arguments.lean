import GraphMarkup.Dot.Document

/-!
# Arguments

The arguments name a command and say how it is to run. Some options belong to all commands and
may stand before the command or after it; where one stands on both sides, the one after the
command holds. An option that takes a value takes it from the same argument, after an equals
sign, or from the next one, which must not look like an option then. No option may be given
twice on one side. After an argument of two hyphens everything is a file name.

`Request.ofArguments` reads a whole list of arguments: it asks for a run, for the version, or is
not understood.
-/

namespace GraphMarkup.CommandLine

/-! ## What can be asked for -/

/-- The form in which remarks are given. -/
inductive OutputFormat where
  | text
  | json
deriving DecidableEq, Repr, Inhabited

/-- What is written. -/
inductive EmitFormat where
  | markup
  | json
deriving DecidableEq, Repr, Inhabited

/-- Which words are reserved. -/
inductive KeywordChoice where
  | minimal
  | extended
deriving DecidableEq, Repr, Inhabited

/-- The words that a choice reserves. -/
def KeywordChoice.keywords : KeywordChoice → Dot.KeywordSet
  | .minimal => .minimal
  | .extended => .extended

/-- The commands. -/
inductive CommandName where
  | dot
  | llvm
  | tokens
deriving DecidableEq, Repr, Inhabited

/-- A command with all that it needs to know. A file that is not given stands for the standard
input. -/
inductive Command where
  | dot (file : Option String) (keywords : KeywordChoice) (mode : Dot.Mode) (emit : EmitFormat)
  | llvm (file : String) (emit : EmitFormat)
  | tokens (file : Option String) (keywords : KeywordChoice)
deriving DecidableEq, Repr, Inhabited

/-- A run that is asked for. -/
structure Invocation where
  output : OutputFormat
  quiet : Bool
  /-- The directory of the fragments. -/
  templates : String
  command : Command
deriving DecidableEq, Repr, Inhabited

/-- What the arguments ask for. -/
inductive Request where
  | run (i : Invocation)
  | version
  /-- The arguments are not understood. -/
  | rejected
deriving DecidableEq, Repr, Inhabited

def OutputFormat.ofText? : String → Option OutputFormat
  | "text" => some .text
  | "json" => some .json
  | _ => none

def EmitFormat.ofText? : String → Option EmitFormat
  | "markup" => some .markup
  | "json" => some .json
  | _ => none

def KeywordChoice.ofText? : String → Option KeywordChoice
  | "minimal" => some .minimal
  | "extended" => some .extended
  | _ => none

def CommandName.ofText? : String → Option CommandName
  | "dot" => some .dot
  | "llvm" => some .llvm
  | "tokens" => some .tokens
  | _ => none

/-! ## Options -/

/-- An option that takes no value. -/
inductive Flag where
  | quiet
  | failFast
deriving DecidableEq, Repr

/-- An option that takes a value. -/
inductive Setting where
  | output
  | templates
  | keywords
  | emit
deriving DecidableEq, Repr

def Flag.ofText? : String → Option Flag
  | "quiet" => some .quiet
  | "fail-fast" => some .failFast
  | _ => none

def Setting.ofText? : String → Option Setting
  | "output" => some .output
  | "templates" => some .templates
  | "keywords" => some .keywords
  | "emit" => some .emit
  | _ => none

/-- Whether a flag may stand before the command (none) or after a given one. -/
def Flag.allowed : Flag → Option CommandName → Bool
  | .quiet, _ => true
  | .failFast, command => command == some .dot

/-- Whether a setting may stand before the command (none) or after a given one. -/
def Setting.allowed : Setting → Option CommandName → Bool
  | .output, _ => true
  | .templates, _ => true
  | .keywords, command => command == some .dot || command == some .tokens
  | .emit, command => command == some .dot || command == some .llvm

/-! ## Items -/

/-- What one argument, or an option with its value, comes to. -/
inductive Item where
  | flag (f : Flag)
  | setting (s : Setting) (value : String)
  | version
  /-- Two hyphens. -/
  | separator
  | plain (text : String)
  /-- Nothing that is understood. -/
  | unknown
deriving DecidableEq, Repr

/-- Whether an argument looks like an option. A single hyphen does not. -/
def looksLikeOption (arg : String) : Bool := arg.toList.head? == some '-' && arg != "-"

/-- What stands before and after the first equals sign. -/
def splitValue (text : String) : String × Option String :=
  let cs := text.toList
  let value := match cs.dropWhile (· != '=') with
    | _ :: rest => some (String.ofList rest)
    | [] => none
  (String.ofList (cs.takeWhile (· != '=')), value)

/-- An argument by itself: the item, or the setting that still needs its value. -/
def readArgument (arg : String) : Item ⊕ Setting :=
  match arg.toList with
  | ['-', '-'] => .inl .separator
  | '-' :: '-' :: long =>
    match splitValue (String.ofList long) with
    | (name, some value) =>
      .inl (((Setting.ofText? name).map (Item.setting · value)).getD .unknown)
    | (name, none) =>
      match Setting.ofText? name with
      | some s => .inr s
      | none =>
        if name == "version" then .inl .version
        else .inl (((Flag.ofText? name).map Item.flag).getD .unknown)
  | '-' :: 'V' :: _ => .inl .version
  | '-' :: _ :: _ => .inl .unknown
  | _ => .inl (.plain arg)

/-- The items of some arguments. -/
def items : List String → List Item
  | [] => []
  | arg :: rest =>
    match readArgument arg with
    | .inl .separator => .separator :: rest.map .plain
    | .inl item => item :: items rest
    | .inr s =>
      match rest with
      | value :: more =>
        if looksLikeOption value then .unknown :: items (value :: more)
        else .setting s value :: items more
      | [] => [.unknown]

/-! ## Reading them -/

/-- What was given on one side of the command. -/
structure Given where
  output : Option OutputFormat := none
  quiet : Bool := false
  templates : Option String := none
  keywords : Option KeywordChoice := none
  failFast : Bool := false
  emit : Option EmitFormat := none
  file : Option String := none
deriving DecidableEq, Repr, Inhabited

namespace Given

/-- Notes a flag, unless it has been given. -/
def addFlag? (g : Given) : Flag → Option Given
  | .quiet => if g.quiet then none else some { g with quiet := true }
  | .failFast => if g.failFast then none else some { g with failFast := true }

/-- A value that is not given yet, as far as it is understood. -/
def fresh? {α : Type} (given : Option α) (value : Option α) : Option (Option α) :=
  if given.isSome || value.isNone then none else some value

/-- A path, which must not be empty. -/
def path? (text : String) : Option String := if text.isEmpty then none else some text

/-- Notes a setting, unless it has been given or its value is not understood. -/
def addSetting? (g : Given) (value : String) : Setting → Option Given
  | .output => return { g with output := ← fresh? g.output (OutputFormat.ofText? value) }
  | .templates => return { g with templates := ← fresh? g.templates (path? value) }
  | .keywords => return { g with keywords := ← fresh? g.keywords (KeywordChoice.ofText? value) }
  | .emit => return { g with emit := ← fresh? g.emit (EmitFormat.ofText? value) }

/-- Notes an option on one side of the command. -/
def addOption? (side : Option CommandName) (g : Given) : Item → Option Given
  | .flag f => if f.allowed side then g.addFlag? f else none
  | .setting s value => if s.allowed side then g.addSetting? value s else none
  | _ => none

/-- Notes an item after the command. -/
def addItem? (command : CommandName) (g : Given) : Item → Option Given
  | .separator => some g
  | .plain text => return { g with file := ← fresh? g.file (path? text) }
  | item => g.addOption? (some command) item

/-- The run that is asked for by what stands before and after a command. -/
def invocation? (before after : Given) (command : CommandName) : Option Invocation := do
  let keywords := after.keywords.getD .extended
  let emit := after.emit.getD .markup
  let command ← match command with
    | .dot =>
      let mode := if after.failFast then Dot.Mode.failFast else .recover
      some (Command.dot after.file keywords mode emit)
    | .llvm => after.file.map (Command.llvm · emit)
    | .tokens => some (Command.tokens after.file keywords)
  return {
    output := (after.output <|> before.output).getD .text
    quiet := before.quiet || after.quiet
    templates := (after.templates <|> before.templates).getD "."
    command := command }

end Given

namespace Request

/-- Reads what stands after the command. -/
def ofCommand (before : Given) (command : CommandName) (rest : List Item) : Request :=
  match rest.foldlM (Given.addItem? command) {} with
  | none => .rejected
  | some after =>
    match before.invocation? after command with
    | none => .rejected
    | some i => .run i

/-- Reads items from the start. Whether the version is asked for is settled before anything
that follows is looked at. -/
def ofItems (before : Given) : List Item → Request
  | [] => .rejected
  | .version :: _ => .version
  | .plain text :: rest =>
    match CommandName.ofText? text with
    | some command => ofCommand before command rest
    | none => .rejected
  | item :: rest =>
    match before.addOption? none item with
    | some before => ofItems before rest
    | none => .rejected

/-- Reads the arguments. -/
def ofArguments (args : List String) : Request := ofItems {} (items args)

end Request

end GraphMarkup.CommandLine
