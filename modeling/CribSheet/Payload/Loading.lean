/-
Loading payloads from bytes.

A payload is UTF-8.  Bytes that are not are refused like any other failure to read, in the words of the
operating system.

Main definitions:

* `CribSheet.LoadError` — why a payload gives no sheet;
* `CribSheet.Payload.ofBytes` — the payload that bytes encode;
* `CribSheet.Payload.complete`, `CribSheet.Payload.normalize` — what becomes of it.
-/
import CribSheet.Files.Fault
import CribSheet.Sheet.Pipeline
import CribSheet.Text.Bytes

set_option relaxedAutoImplicit false
set_option autoImplicit false

namespace CribSheet

/-- Why a payload gives no sheet. -/
inductive LoadError
  /-- It cannot be read. -/
  | unreadable (fault : FileFault)
  /-- It is refused by a stage. -/
  | refused (refusal : Refusal)
deriving Repr, DecidableEq

/-- The wording of the error. -/
def LoadError.message : LoadError → Text
  | .unreadable fault => "IO error: ".toList ++ fault.message
  | .refused refusal => "Transform error: ".toList ++ refusal.message

namespace Payload

/-- The payload that the bytes encode. -/
def ofBytes (bytes : ByteArray) : Except LoadError Text :=
  match Text.decode? bytes with
  | some raw => .ok raw
  | none => .error (.unreadable .notText)

/-- The document that a payload becomes without a topic: sanitized and completed only. -/
def complete (raw : Text) : Except LoadError Text := (runStages normalization raw).mapError .refused

/-- The sheet that a payload becomes for a topic. -/
def normalize (options : PipelineOptions) (topic raw : Text) : Except LoadError Document :=
  (options.document topic raw).mapError .refused

end Payload

end CribSheet
