import Novon.Data.Run

/-!
# Machines that keep records under keys

A record is a map from field names to values.  Each step of a `RecordMachine` makes one `Write`,
which can be told from the input and the output of the step alone, so that a trace determines the
history of every record.
-/

namespace Novon

/-- What one step does to the records: `assign` overwrites some fields of one record. -/
inductive Write (κ φ ν : Type*) where
  | idle
  | create (k : κ) (value : φ → ν)
  | assign (k : κ) (value : φ → Option ν)
  | remove (k : κ)

namespace Write

variable {σ κ φ ν : Type*}

/-- The records before and after a write. -/
def Relates (record : σ → κ → Option (φ → ν)) (s s' : σ) : Write κ φ ν → Prop
  | idle => ∀ k, record s' k = record s k
  | create k value => record s' k = some value ∧ ∀ k' ≠ k, record s' k' = record s k'
  | assign k value => (∃ old, record s k = some old ∧
      record s' k = some fun f => (value f).getD (old f)) ∧ ∀ k' ≠ k, record s' k' = record s k'
  | remove k => record s k ≠ none ∧ record s' k = none ∧ ∀ k' ≠ k, record s' k' = record s k'

/-- The key of the record that a write creates. -/
def created : Write κ φ ν → Option κ
  | create k _ => some k
  | _ => none

/-- The key of the record that a write removes. -/
def removed : Write κ φ ν → Option κ
  | remove k => some k
  | _ => none

/-- What a write assigns to a field of a record that is there. -/
def assigned [DecidableEq κ] (k : κ) (f : φ) : Write κ φ ν → Option ν
  | assign k' value => if k' = k then value f else none
  | _ => none

end Write

/-- A machine whose steps write records. -/
structure RecordMachine (σ ι ρ κ φ ν : Type*) where
  step : ι → σ → ρ × σ
  record : σ → κ → Option (φ → ν)
  /-- The write of a step, from its input and its output. -/
  write : ι × ρ → Write κ φ ν
  relates : ∀ i s, (write (i, (step i s).1)).Relates record s (step i s).2

namespace RecordMachine

variable {σ ι ρ κ φ ν : Type*} (machine : RecordMachine σ ι ρ κ φ ν)

/-- The keys of the records created in a trace, in order. -/
def createdKeys (trace : List (ι × ρ)) : List κ :=
  trace.filterMap fun t => (machine.write t).created

/-- The keys of the records removed in a trace, in order. -/
def removedKeys (trace : List (ι × ρ)) : List κ :=
  trace.filterMap fun t => (machine.write t).removed

/-- The latest value that a trace assigns to a field of a record. -/
def latest [DecidableEq κ] (k : κ) (f : φ) (trace : List (ι × ρ)) : Option ν :=
  trace.reverse.findSome? fun t => (machine.write t).assigned k f

end RecordMachine

end Novon
