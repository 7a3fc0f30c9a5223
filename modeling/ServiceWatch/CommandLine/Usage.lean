import ServiceWatch.CommandLine.Grammar

/-!
# The usage text

The usage text names every command and every option.  It is made from the lists that the command
line is read by, so it cannot leave one out.
-/

namespace ServiceWatch.CommandLine

/-- The line of an option with a value, with the variable of the environment that may give it. -/
def Valued.usage (option : Valued) : String :=
  let letter := option.letter.elim "" fun c => "-" ++ c.toString ++ ", "
  let variableName := option.environment.elim "" fun name => " [env: " ++ name ++ "]"
  "  " ++ letter ++ "--" ++ option.name ++ " <VALUE>" ++ variableName ++ "\n"

/-- The line of an option without a value. -/
def flagUsage (name : String) (letter : Option Char) : String :=
  "  " ++ letter.elim "" (fun c => "-" ++ c.toString ++ ", ") ++ "--" ++ name ++ "\n"

/-- The line of a command, and the lines of the commands behind it. -/
def commandUsage (name : String) (place : Place) : String :=
  if place.commands.isEmpty then "  " ++ name ++ "\n"
  else String.join (place.commands.map fun inner => "  " ++ name ++ " " ++ inner.1 ++ "\n")

/-- The usage text. -/
def usage : String :=
  "Usage: vigil [OPTIONS] [COMMAND]\n\nCommands:\n" ++
    String.join (Place.program.commands.map fun (name, place) => commandUsage name place) ++
    "\nOptions:\n" ++ String.join ((valuedAt .check).map Valued.usage) ++
    String.join ((flagsAt .check).map fun (name, letter, _) => flagUsage name letter)

end ServiceWatch.CommandLine
