import SheetLint.Text.Case

/-! Lower-case texts. -/
namespace SheetLint.Text

/-- The run that has a letter among its members. -/
def caseRun? (code : Nat) : List CaseRun → Option CaseRun
  | [] => none
  | run :: rest =>
    if code < run.low then none
    else if code ≤ run.high then
      if (code - run.low) % run.step = 0 then some run else none
    else caseRun? code rest

/-- The lower-case form of one letter. A capital I with a dot keeps its dot as a combining mark. -/
def lowerLetter (c : Char) : List Char :=
  if c.toNat < 128 then [c.toLower]
  else if c.toNat = 304 then ['i', Char.ofNat 775]
  else match caseRun? c.toNat caseRuns with
    | some run => [Char.ofNat (c.toNat + run.shift).toNat]
    | none => [c]

/-- The first letter that is not passed over has case. -/
def startsCased (text : List Char) : Bool :=
  match text.dropWhile isPassed with
  | [] => false
  | c :: _ => isCased c

/-- `within` says that the letters before end in one that has case, marks passed over. A capital
sigma that stands at the end of a word takes its final form. -/
def lowerFrom (within : Bool) : List Char → List Char
  | [] => []
  | c :: rest =>
    (if c.toNat = 931 then
      [if within && !startsCased rest then Char.ofNat 962 else Char.ofNat 963]
    else lowerLetter c) ++ lowerFrom (if isPassed c then within else isCased c) rest

/-- A text in lower case. -/
def lower (text : List Char) : List Char := lowerFrom false text

end SheetLint.Text
