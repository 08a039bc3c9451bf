import Barbaro.Core.Paths
import Barbaro.Core.Patterns
import Barbaro.Lib.FileTree

/-!
# The command of a hook

The doctor reads the command text of a configured hook: it takes the text apart at white
space and quotes, finds the words that name Barbaro, and looks where the programs they name
are. Nothing is expanded or run. What the file system says about a path is a parameter.
-/

namespace Barbaro.Setup

open FileTree (Errno)

inductive HookProvider
  | codex
  | claude
  deriving DecidableEq, Repr

def HookProvider.name : HookProvider → JsString
  | codex => js "codex"
  | claude => js "claude"

/-! ## Files -/

inductive PathKind
  | missing | file | directory | symlink | other
  deriving DecidableEq, Repr

structure ResolvedFileFacts where
  realPath : Option JsString
  kind : PathKind
  /-- Known of a file. -/
  executable : Option Bool
  deriving DecidableEq, Repr

/-- Where the doctor runs. -/
structure Machine where
  /-- `inspectResolvedFile` -/
  inspectResolvedFile : JsString → Except Errno ResolvedFileFacts
  /-- The components of the working directory. -/
  cwd : List JsString
  /-- `env["PATH"]` -/
  path : Option JsString

/-- The text of an absolute path. -/
def absoluteText (components : List JsString) : JsString := 47 :: ([47] : JsString).intercalate components

/-- One more component of a relative path, which may begin above where it starts. -/
def relativeComponent (components : List JsString) (component : JsString) : List JsString :=
  if component = [] ∨ component = js "." then components
  else if component = js ".." then
    if components.getLast?.all (· == js "..") then components ++ [js ".."] else components.dropLast
  else components ++ [component]

/-- `join(directory, command)`, where the command has no slash. -/
def joinText (directory command : JsString) : JsString :=
  let path := directory ++ 47 :: command
  if directory.head? = some 47 then absoluteText (resolvePath [] path)
  else
    let components := (path.splitOn 47).foldl relativeComponent []
    if components = [] then js "." else ([47] : JsString).intercalate components

/-- `resolve(directory, path)` -/
def resolveText (directory : List JsString) (path : JsString) : JsString := absoluteText (resolvePath directory path)

namespace Machine

variable (M : Machine)

/-- The loop over the directories of the search path. -/
def searchPath (command : JsString) : List JsString → Except Errno (Option JsString)
  | [] => .ok none
  | directory :: directories =>
    if directory.length = 0 then searchPath command directories
    else
      let candidate := joinText directory command
      match M.inspectResolvedFile candidate with
      | .error e => .error e
      | .ok resolved =>
        if resolved.kind = .file ∧ resolved.executable = some true then .ok (some candidate)
        else searchPath command directories

/-- Locate an executable the way a shell would, without running it. -/
def resolveExecutable (command : JsString) : Except Errno (Option JsString) :=
  if command.length = 0 then .ok none
  else if 47 ∈ command then
    let path := if command.head? = some 47 then command else resolveText M.cwd command
    match M.inspectResolvedFile path with
    | .error e => .error e
    | .ok resolved => .ok (if resolved.kind = .file ∧ resolved.executable = some true then some path else none)
  else M.searchPath command ((M.path.getD []).splitOn 58)

end Machine

/-! ## Words -/

/-- The loop over the characters: the open quote, and the token so far with whether it has
begun. White space and quotes are single units, so the units stand for the characters. -/
def tokenizeLoop : Option UInt16 → JsString → Bool → JsString → List JsString
  | _, current, started, [] => if started then [current] else []
  | some quote, current, started, character :: command =>
    if character = quote then tokenizeLoop none current started command
    else tokenizeLoop (some quote) (current ++ [character]) started command
  | none, current, started, character :: command =>
    if character = 34 ∨ character = 39 then tokenizeLoop (some character) current true command
    else if isTrimUnit character then
      if started then current :: tokenizeLoop none [] false command else tokenizeLoop none current started command
    else tokenizeLoop none (current ++ [character]) true command

/-- Split a hook command into shell-like tokens. Single and double quotes group a token. -/
def tokenizeCommand (command : JsString) : List JsString := tokenizeLoop none [] false command

def subcommands : List JsString := [js "hook", js "hook-ingest"]

def isBarbaroCliToken (token : JsString) : Bool :=
  token == js "barbaro" || token.contains 47 || token.contains 92 || token.head? == some 46 ||
    (js ".js").isSuffixOf token

structure HookCommandAnalysis where
  event : JsString
  command : JsString
  subcommand : Option JsString
  cliToken : Option JsString
  interpreterToken : Option JsString
  deriving DecidableEq

/-- The loop over the tokens, after the one before: the role and the CLI token where a
Barbaro invocation begins. -/
def findInvocation (provider : HookProvider) : Option JsString → List JsString → Option (JsString × JsString)
  | candidate, token :: next :: tokens =>
    match candidate with
    | some cli =>
      if token = provider.name ∧ next ∈ subcommands ∧ isBarbaroCliToken cli then some (next, cli)
      else findInvocation provider (some token) (next :: tokens)
    | none => findInvocation provider (some token) (next :: tokens)
  | _, _ => none

/-- Identify the Barbaro invocation inside one hook command. -/
def analyzeHookCommand (event command : JsString) (provider : HookProvider) : HookCommandAnalysis :=
  let tokens := tokenizeCommand command
  let found := findInvocation provider none tokens
  let cliToken := found.map (·.2)
  { event, command,
    subcommand := found.map (fun f => provider.name ++ 32 :: f.1),
    cliToken,
    interpreterToken := tokens.head?.bind (fun first => if some first = cliToken then none else some first) }

/-! ## The program -/

/-- The characters a literal command has none of. -/
def isRefused (u : UInt16) : Bool :=
  u == 96 || u == 36 || u == 92 || u == 10 || u == 13 || u == 59 || u == 38 || u == 124 || u == 60 || u == 62 ||
    u == 40 || u == 41

/-- `basename(path)` -/
def basename (path : JsString) : JsString :=
  ((path.reverse.dropWhile (· == 47)).takeWhile (· != 47)).reverse

/-- `/^node(?:\.exe)?$/` -/
def isNodeName (name : JsString) : Bool := name == js "node" || name == js "node.exe"

inductive Resolution
  | resolved (cliPath : JsString) (interpreterPath : Option JsString)
  | unresolved
  | unsupportedCommand
  deriving DecidableEq

section
variable (M : Machine) (projectRoot : List JsString)

/-- Where the interpreter is: `none` where there is no such program. -/
def locateInterpreter (word : JsString) : Except Errno (Option JsString) := do
  match ← M.resolveExecutable (if 47 ∈ word then resolveText projectRoot word else word) with
  | none => return none
  | some interpreter =>
    let info ← M.inspectResolvedFile interpreter
    return some (info.realPath.getD interpreter)

/-- Where the CLI is. Without an interpreter it has to be executable. -/
def locateCli (interpreted : Bool) (word : JsString) : Except Errno (Option JsString) := do
  match ← if 47 ∈ word then pure (some (resolveText projectRoot word)) else M.resolveExecutable word with
  | none => return none
  | some target =>
    let info ← M.inspectResolvedFile target
    if info.kind ≠ .file ∨ (interpreted = false ∧ info.executable ≠ some true) then return none
    else return some (info.realPath.getD target)

/-- Resolve only literal foreground bin or Node invocations. -/
def resolveHookCommand (command : JsString) (provider : HookProvider) : Except Errno Resolution := do
  if command.any isRefused then return .unsupportedCommand
  let tokens := tokenizeCommand command
  let args := tokens.drop (tokens.length - 2)
  if args[0]? ≠ some provider.name ∨ ¬ (args[1]?.getD []) ∈ subcommands then return .unsupportedCommand
  match tokens.take (tokens.length - 2) with
  | [cli] =>
    match ← locateCli M projectRoot false cli with
    | none => return .unresolved
    | some cliPath => return .resolved cliPath none
  | [word, cli] =>
    if !isNodeName (basename word) then return .unsupportedCommand
    match ← locateInterpreter M projectRoot word with
    | none => return .unresolved
    | some interpreter =>
      match ← locateCli M projectRoot true cli with
      | none => return .unresolved
      | some cliPath => return .resolved cliPath (some interpreter)
  | _ => return .unsupportedCommand

end

end Barbaro.Setup
