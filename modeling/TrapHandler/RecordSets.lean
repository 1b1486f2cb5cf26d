import TrapHandler.WideStrings

/-!
# Record sets

The rows a query returns, read by column number. A value of another type than the one asked for
raises an exception.
-/

namespace TrapHandler

/-- A value of a record set; a `float` is the number it stands for. -/
inductive SqlValue where
  | null
  | int (n : Int32)
  | bigint (n : Int64)
  | float (d : ℚ)
  | text (s : WStr)
  deriving DecidableEq, Repr

/-- The values of one row, in the order of the columns selected. -/
abbrev RecordRow := List SqlValue

namespace RecordRow

/-- `rs.value(i).isEmpty()`. Here and below `none` is an exception. -/
def isEmpty (rs : RecordRow) (i : ℕ) : Option Bool := rs[i]?.map (· == .null)

def extractInt (rs : RecordRow) (i : ℕ) : Option Int32 :=
  match rs[i]? with
  | some (.int n) => some n
  | _ => none

def extractInt64 (rs : RecordRow) (i : ℕ) : Option Int64 :=
  match rs[i]? with
  | some (.bigint n) => some n
  | _ => none

def extractWstring (rs : RecordRow) (i : ℕ) : Option WStr :=
  match rs[i]? with
  | some (.text s) => some s
  | _ => none

def extractDouble (rs : RecordRow) (i : ℕ) : Option ℚ :=
  match rs[i]? with
  | some (.float d) => some d
  | _ => none

def intOr (rs : RecordRow) (i : ℕ) (n : Int32) : Option Int32 := do
  if ← rs.isEmpty i then pure n else rs.extractInt i

def wstringOr (rs : RecordRow) (i : ℕ) (s : WStr) : Option WStr := do
  if ← rs.isEmpty i then pure s else rs.extractWstring i

end RecordRow

/-- The value of a column that may be null. -/
def SqlValue.ofInt? (n : Option Int32) : SqlValue := n.elim .null .int

def SqlValue.ofText? (s : Option WStr) : SqlValue := s.elim .null .text

theorem intOr_ofInt? {rs : RecordRow} {i : ℕ} {n : Option Int32} (d : Int32)
    (h : rs[i]? = some (.ofInt? n)) : rs.intOr i d = some (n.getD d) := by
  cases n with
  | none => simp [RecordRow.intOr, RecordRow.isEmpty, h, SqlValue.ofInt?]
  | some n => simp [RecordRow.intOr, RecordRow.isEmpty, RecordRow.extractInt, h, SqlValue.ofInt?]

theorem wstringOr_ofText? {rs : RecordRow} {i : ℕ} {s : Option WStr} (d : WStr)
    (h : rs[i]? = some (.ofText? s)) : rs.wstringOr i d = some (s.getD d) := by
  cases s with
  | none => simp [RecordRow.wstringOr, RecordRow.isEmpty, h, SqlValue.ofText?]
  | some s =>
    simp [RecordRow.wstringOr, RecordRow.isEmpty, RecordRow.extractWstring, h, SqlValue.ofText?]

end TrapHandler
