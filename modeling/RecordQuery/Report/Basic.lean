import RecordQuery.Environment
import RecordQuery.Report.Style
import RecordQuery.Report.Template

/-! What is printed: the records as a report for people or as JSON, and the line for an error. A
report is a blank line, a separator, a line for each record, the separator again, the total and a
blank line. -/
namespace RecordQuery

inductive Format where
  | text
  | json
  deriving DecidableEq, Repr

structure Appearance where
  colours : Bool
  template : String
  deriving DecidableEq, Repr

namespace Appearance

def defaultTemplate : String := "\x7bnumber\x7d\t\x7bcity\x7d | \x7bregion\x7d"

def ofEnvironment (environment : Environment) (template : String) : Appearance :=
  ⟨environment.wantsColours, template⟩

end Appearance

namespace Report

def separator : List Char := "--------------------------".toList

def total (count : Nat) : List Char := "Total: ".toList ++ Decimal.digits count

def lines (template : String) (records : List Record) : List Char :=
  records.flatMap fun record => Template.line template record ++ ['\n']

def text (appearance : Appearance) (shows : Bool) (records : List Record) : List Char :=
  let shows := appearance.colours && shows
  let separator := Style.muted.apply shows separator ++ ['\n']
  '\n' :: (separator ++ lines appearance.template records ++ separator ++
    Style.emphasis.apply shows (total records.length) ++ ['\n', '\n'])

def json (records : List Record) : List Char :=
  (Record.array records).pretty 0 ++ ['\n']

def print (format : Format) (appearance : Appearance) (shows : Bool) (records : List Record) :
    List Char :=
  match format with
  | .text => text appearance shows records
  | .json => json records

def error (appearance : Appearance) (shows : Bool) (message : String) : List Char :=
  Style.error.apply (appearance.colours && shows) message.toList ++ ['\n']

end Report
end RecordQuery
