import ContractMeter.Tree.Value

/-!
# ContractMeter.Script.Pattern.Option

Options of a regular expression:

* `PatternOption.ofLetter?` — the option a letter stands for.
* `switches?` — options as a group at the start of a pattern, or of a part of it, gives them.
-/

namespace ContractMeter

namespace PatternOption

def ofLetter? : Char → Option PatternOption
  | 'i' => some .ignoreCase
  | 'm' => some .multiline
  | 's' => some .dotAll
  | 'x' => some .verbose
  | 'a' => some .ascii
  | 'u' => some .unicode
  | 't' => some .template
  | _ => none

/-- Whether an option chooses the alphabet. At most one such option holds, and it stays on. -/
def choosesAlphabet : PatternOption → Bool
  | ascii => true
  | unicode => true
  | _ => false

/-- Whether a set of options names both alphabets. -/
def conflict (options : List PatternOption) : Bool :=
  options.contains .ascii && options.contains .unicode

end PatternOption

namespace Script.Pattern

/-- Options that a group gives: to the whole pattern, or to what the group holds. -/
inductive Switches where
  | whole (on : List PatternOption)
  | part (on off : List PatternOption)

/-- The switches written with the given letters: those in front of the hyphen, those behind it
if there is one, and whether a colon follows, so that they hold for a part only. -/
def switches? (on : List Char) (off : Option (List Char)) (colon : Bool) : Option Switches := do
  let switchedOn ← on.mapM PatternOption.ofLetter?
  let switchedOff ← (off.getD []).mapM PatternOption.ofLetter?
  if on.isEmpty && off.isNone then none
  if off.any List.isEmpty then none
  if PatternOption.conflict switchedOn then none
  if !colon then
    if off.isSome then none else some (.whole switchedOn)
  else
    if switchedOn.contains .template || switchedOff.contains .template then none
    if switchedOff.any PatternOption.choosesAlphabet then none
    if switchedOn.any switchedOff.contains then none
    some (.part switchedOn switchedOff)

end Script.Pattern

end ContractMeter
