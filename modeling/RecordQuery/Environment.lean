/-! The environment variables that the program looks at, and what they say about colours. -/
namespace RecordQuery

abbrev Environment := List (String × String)

namespace Environment

def get? (environment : Environment) (name : String) : Option String :=
  environment.lookup name

def noColour : String := "NO_COLOR"

def colour : String := "RECSIFT_COLOR"

def wantsColours (environment : Environment) : Bool :=
  match environment.get? noColour, environment.get? colour with
  | some _, _ => false
  | none, none => true
  | none, some value => !(value == "0" || value.toList.map Char.toLower == "false".toList)

def showsStyles (environment : Environment) (terminal : Bool) : Bool :=
  let isOn (value : String) : Bool := value != "0"
  if (environment.get? "CLICOLOR_FORCE").any isOn then true
  else if (environment.get? noColour).isSome then false
  else terminal && (environment.get? "CLICOLOR").all isOn

end Environment
end RecordQuery
