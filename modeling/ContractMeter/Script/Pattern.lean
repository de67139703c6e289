import ContractMeter.Script.Pattern.Check
import ContractMeter.Script.Pattern.Escape

/-!
# ContractMeter.Script.Pattern

Regular expressions of a script:

* `Pattern.flagOptions` — the options that the flags ask for.
* `compilePattern?` — the compiled pattern, if the matching engine takes it.
-/

namespace ContractMeter.Script

/-- The options that the flags ask for: only two of them matter, and the first one wins. -/
def Pattern.flagOptions (flags : String) : List PatternOption :=
  if flags.contains 'm' then [.multiline]
  else if flags.contains 'i' then [.ignoreCase]
  else []

/-- The compiled pattern of a regular expression. Options it gives itself hold besides those of
its flags. -/
def compilePattern? (pattern flags : String) : Option Value := do
  let points ← Pattern.resolve? pattern
  let options ← Pattern.ownOptions? points
  return .host (.pattern points (Pattern.flagOptions flags ++ options))

end ContractMeter.Script
