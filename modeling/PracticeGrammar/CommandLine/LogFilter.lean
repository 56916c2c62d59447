import PracticeGrammar.Notice

/-! Which notices are shown. -/

namespace PracticeGrammar.CommandLine

/-- Shows the notices whose target begins with a given text, up to a level. -/
structure LogFilter where
  target : String
  /-- The most talkative level that is shown, if any is. -/
  limit : Option Level
deriving DecidableEq

namespace LogFilter

/-- Errors alone are shown unless something else is asked for. -/
def standard : LogFilter := ⟨"", some .error⟩

/-- Reads `level`, `target` or `target=level`. A target without a level shows all its notices, and
a level that has no name shows none. -/
def ofText (text : String) : LogFilter :=
  let target := text.toList.takeWhile (· != '=')
  match text.toList.dropWhile (· != '=') with
  | _ :: level => ⟨String.ofList target, Level.ofName? (String.ofList level)⟩
  | [] =>
    if target.isEmpty then standard
    else if target.map Char.toLower = "off".toList then ⟨"", none⟩
    else match Level.ofName? text with
      | some level => ⟨"", some level⟩
      | none => ⟨text, some .trace⟩

def shows (filter : LogFilter) (notice : Notice) : Bool :=
  filter.target.toList.isPrefixOf notice.target.toList
    && filter.limit.any fun limit => notice.level.rank ≤ limit.rank

/-- A notice as a line of the log. -/
def line (notice : Notice) : String :=
  " " ++ notice.level.name ++ " " ++ notice.target ++ " > " ++ notice.text ++ "\n"

/-- The log of the notices that are shown. -/
def log (filter : LogFilter) (notices : List Notice) : String :=
  String.join ((notices.filter filter.shows).map line)

end LogFilter
end PracticeGrammar.CommandLine
