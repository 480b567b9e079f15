import StrictEquality.Edit

/-!
# Findings

What rules report about a file.

## Main definitions

- `Finding` — a message about a byte range, perhaps with edits that mend it
- `Finding.record` — the form in which findings are handed on
- `Finding.edits` — the edits to apply for a list of findings
-/

namespace StrictEquality

/-- A message about a byte range of a file. The severity is whatever the
configuration gives. -/
structure Finding where
  rule : String
  message : String
  file : String
  start : Int
  stop : Int
  severity : Value
  fixes : List Edit := []
  details : Entries := []

namespace Finding

/-- An edit as it is handed on. -/
def editRecord (e : Edit) : Value :=
  .map [(.text "start_byte", .int e.start), (.text "end_byte", .int e.stop),
    (.text "replacement", .text e.replacement)]

/-- A finding as it is handed on. Edits and details are left out if there are none. -/
def record (f : Finding) : Value :=
  let required : Entries :=
    [(.text "rule_id", .text f.rule), (.text "message", .text f.message),
      (.text "file_path", .text f.file), (.text "start_byte", .int f.start),
      (.text "end_byte", .int f.stop), (.text "severity", f.severity),
      (.text "fixable", .bool !f.fixes.isEmpty)]
  let fixes : Entries :=
    if f.fixes.isEmpty then [] else [(.text "autofix", .list (f.fixes.map editRecord))]
  let details : Entries := if f.details.isEmpty then [] else [(.text "meta", .map f.details)]
  .map (required ++ fixes ++ details)

/-- The edits to apply for a list of findings. -/
def edits (findings : List Finding) : Report (List Edit) :=
  Edit.collect (findings.flatMap Finding.fixes)

end Finding

end StrictEquality
