/-
The journal: what the steps of the program report about their work.

A report is a value of its own kind, with the figures it is about; its level, the module it is filed
under and its wording follow from that value.  A journal line is written when its level is at least as
severe as the chosen one.

Main definitions:

* `CribSheet.Level`, `CribSheet.Level.ofText?` — levels and their names;
* `CribSheet.Report` — the reports;
* `CribSheet.Report.line` — a report as a journal line.
-/
import CribSheet.Math.Options
import CribSheet.Text.Blank

set_option relaxedAutoImplicit false
set_option autoImplicit false

namespace CribSheet

/-! ### Levels -/

/-- How much a journal line matters. -/
inductive Level
  | error
  | warn
  | info
  | debug
  | trace
deriving Repr, DecidableEq

namespace Level

/-- The place of a level, from the most severe on. -/
def rank : Level → Nat
  | .error => 0
  | .warn => 1
  | .info => 2
  | .debug => 3
  | .trace => 4

/-- A line of level `l` is written when `chosen` is the chosen level. -/
def shows (chosen l : Level) : Bool := l.rank ≤ chosen.rank

/-- The name of a level at the start of a journal line. -/
def label : Level → Text
  | .error => "ERROR".toList
  | .warn => "WARN".toList
  | .info => "INFO".toList
  | .debug => "DEBUG".toList
  | .trace => "TRACE".toList

/-- The name of a level as it is looked up: trimmed and in small letters. -/
def key (name : Text) : Text := name.trim.lower

/-- The level with the name. -/
def ofText? (name : Text) : Option Level :=
  let key := key name
  if key = "trace".toList then some .trace
  else if key = "debug".toList then some .debug
  else if key = "info".toList then some .info
  else if key = "warn".toList ∨ key = "warning".toList then some .warn
  else if key = "error".toList then some .error
  else none

end Level

/-! ### Reports -/

/-- What a step reports. -/
inductive Report
  /-- A payload of so many bytes was sanitized to so many. -/
  | sanitized (bytesIn bytesOut : Nat)
  /-- A text was checked for a root, and wrapped or not. -/
  | completed (wrapped : Bool) (language : Text)
  /-- The identity was enforced. -/
  | identified (titleChanged footerAdded : Bool)
  /-- The mathematics was repaired under these settings. -/
  | mathRepaired (options : MathOptions)
  /-- A sheet is ready to be published. -/
  | built (format slug : Text) (bytes : Nat)
  /-- An artifact was serialized. -/
  | published (format : Text) (binary toFile : Bool)
  /-- A sheet was written in Markdown. -/
  | previewed (blocks bytes : Nat)
  /-- An engine is about to run. -/
  | compiling (engine : Text) (passes : Nat) (stem : Text)
  /-- An engine ran once. -/
  | passed (engine : Text) (pass status : Nat)
  /-- An engine failed. -/
  | compileFailed (engine : Text) (pass : Nat)
  /-- No engine is available; the source is written instead. -/
  | degraded (tried : List Text) (source : Text)
  /-- An entry was renamed. -/
  | renamed (source target : Text)
  /-- An entry kept its name because the new one was taken. -/
  | renameSkipped (source target : Text)
deriving Repr, DecidableEq

namespace Report

/-- How much the report matters. -/
def level : Report → Level
  | .built .. | .compiling .. | .renamed .. => .info
  | .compileFailed .. | .degraded .. | .renameSkipped .. => .warn
  | _ => .debug

/-- The module that the report is filed under. -/
def filedUnder : Report → Text
  | .sanitized .. => "sheetcheat_core::latex::transforms::stages::sanitize".toList
  | .completed .. => "sheetcheat_core::latex::transforms::stages::complete".toList
  | .identified .. => "sheetcheat_core::latex::transforms::stages::identity".toList
  | .mathRepaired .. => "sheetcheat_core::latex::transforms::stages::math".toList
  | .built .. | .degraded .. | .renamed .. | .renameSkipped .. => "sheetcheat::commands".toList
  | .published .. => "sheetcheat_babel::publish".toList
  | .previewed .. => "sheetcheat_babel::formats::markdown".toList
  | .compiling .. | .passed .. | .compileFailed .. => "sheetcheat_babel::compile".toList

/-- A number in decimal digits. -/
def number (n : Nat) : Text := (toString n).toList

/-- A truth value in words. -/
def flag (b : Bool) : Text := if b then "true".toList else "false".toList

/-- A message: the event, and its figures as pairs. -/
def event (name : String) (figures : List (String × Text)) : Text :=
  "event=".toList ++ name.toList ++ figures.flatMap fun (key, value) =>
    ' ' :: key.toList ++ '=' :: value

/-- The wording of the report. -/
def message : Report → Text
  | .sanitized bytesIn bytesOut =>
    event "sanitize" [("bytes_in", number bytesIn), ("bytes_out", number bytesOut)]
  | .completed wrapped language =>
    event "complete" [("wrapped", flag wrapped), ("language", language)]
  | .identified titleChanged footerAdded =>
    event "identity" [("title_changed", flag titleChanged), ("footer_added", flag footerAdded)]
  | .mathRepaired options =>
    event "math"
      [("repair_differentials", flag options.repairDifferentials),
       ("isolate_display", flag options.isolateDisplay), ("variable", options.variableName)]
  | .built format slug bytes =>
    event "build" [("format", format), ("slug", slug), ("bytes", number bytes)]
  | .published format binary toFile =>
    event "publish" [("format", format), ("binary", flag binary), ("to_file", flag toFile)]
  | .previewed blocks bytes =>
    event "markdown" [("blocks", number blocks), ("bytes_out", number bytes)]
  | .compiling engine passes stem =>
    event "compile" [("engine", engine), ("passes", number passes), ("stem", stem)]
  | .passed engine pass status =>
    event "compile_pass"
      [("engine", engine), ("pass", number pass),
       ("status", "exit status: ".toList ++ number status)]
  | .compileFailed engine pass =>
    event "compile_failed" [("engine", engine), ("pass", number pass)]
  | .degraded tried source =>
    event "pdf_degraded" [("tried", Text.joinWith [','] tried), ("source", source)]
  | .renamed source target => event "rename" [("from", source), ("to", target)]
  | .renameSkipped source target => event "rename_skipped" [("from", source), ("to", target)]

/-- The report as a journal line. -/
def line (r : Report) : Text :=
  r.level.label ++ ' ' :: '[' :: r.filedUnder ++ ']' :: ' ' :: r.message ++ ['\n']

end Report

end CribSheet
