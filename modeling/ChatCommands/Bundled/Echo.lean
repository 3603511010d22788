import ChatCommands.Command

/-!
# The echo command

`echo <text>` repeats the text, character by character.
-/

namespace ChatCommands

namespace Echo

/-- The parameter that keeps the whole argument text. -/
def text : Parameter where
  label := "TextParameter"
  name := "text"
  wholeInput := true
  help := ⟨"text to repeat", "Everything after the command name, repeated verbatim."⟩
  convert := fun _ value => .ok (Action.write "text" (.text value))

def command : Command where
  label := "EchoCommand"
  name := "echo"
  help := "Repeat the given text"
  parameters := OrderedMap.empty.insert text.name text
  validate := pure true
  run := do return .now (← Action.read "text")

end Echo

end ChatCommands
