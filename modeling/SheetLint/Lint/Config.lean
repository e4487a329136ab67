import SheetLint.Rule.Registry

/-! Configurations: the level of every rule, and options for rules. -/
namespace SheetLint

/-- Level zero disables a rule, one makes its issues warnings and two errors. -/
structure Config where
  rules : Table Datum := .empty
  options : Table (Table Datum) := .empty

/-- What is wrong with a configuration. -/
inductive ConfigFault
  | unknownRule (name : String) (known : List String)
  | badLevel (name : String) (level : Datum)
  | strayOptions (name : String)

def ConfigFault.message : ConfigFault → String
  | unknownRule name known =>
    "Unknown rule '" ++ name ++ "'. Known rules: " ++ ", ".intercalate known
  | badLevel name level =>
    "Rule '" ++ name ++ "' has invalid level " ++ level.written ++ "; use 0, 1 or 2"
  | strayOptions name => "Options given for unknown rule '" ++ name ++ "'"

/-- The words that stand for the parts of a request for options, and so can name no option in it. -/
def reservedWords : List String := ["self", "name"]

/-- An option that cannot be set, since a reserved word is its name. -/
structure ReservedOption where
  word : String
  deriving DecidableEq, Repr

def ReservedOption.message (option : ReservedOption) : String :=
  "LintConfig.with_options() got multiple values for argument '" ++ option.word ++ "'"

def isLevel (level : Datum) : Bool := level.isNat 0 || level.isNat 1 || level.isNat 2

namespace Config

/-- Every named rule at one level. -/
def uniform (names : List String) (level : Datum) : Config :=
  { rules := .ofList (names.map fun name => (name, level)) }

def withRule (config : Config) (name : String) (level : Datum) : Config :=
  { config with rules := config.rules.put name level }

/-- Lays options over those that a rule has, unless a reserved word is among their names. -/
def withOptions (config : Config) (name : String) (options : Table Datum) :
    Except ReservedOption Config :=
  match options.names.find? reservedWords.contains with
  | some word => .error ⟨word⟩
  | none =>
    let old := (config.options.get? name).getD .empty
    .ok { config with options := config.options.put name (old.override options) }

/-- The first entry of the levels that is wrong, unless there is none. -/
def checkRules (known : List String) : List (String × Datum) → Except ConfigFault Unit
  | [] => .ok ()
  | (name, level) :: rest =>
    if !known.contains name then .error (.unknownRule name (sortNames known.eraseDups))
    else if !isLevel level then .error (.badLevel name level)
    else checkRules known rest

/-- The first entry of the options that is wrong, unless there is none. -/
def checkOptions (known : List String) : List String → Except ConfigFault Unit
  | [] => .ok ()
  | name :: rest =>
    if !known.contains name then .error (.strayOptions name) else checkOptions known rest

/-- Checks levels before options, each in order. -/
def check (config : Config) (known : List String) : Except ConfigFault Unit := do
  checkRules known config.rules.entries
  checkOptions known config.options.names

/-- The level of a rule; one that is not mentioned is disabled. -/
def level (config : Config) (name : String) : Datum := (config.rules.get? name).getD (.int 0)

/-- The defaults of a rule under the options given for it. -/
def optionsOf (config : Config) (rule : Rule) : Table Datum :=
  rule.defaults.override ((config.options.get? rule.name).getD .empty)

end Config
end SheetLint
