import DurableKV.Log.Scan

/-!
# Replaying a log

Replay hands the commands of a log to a visitor, in order, passing over foreign entries. It ends at
the end of the log, at the first line that is no record, or when the visitor refuses a command,
whichever comes first. The visitor keeps a state, which is there after a failure too.
-/

namespace DurableKV.Log

/-- How far replay came. -/
structure Position where
  /-- The records that were read, foreign entries included. -/
  records : UInt64 := 0
  /-- The foreign entries among them. -/
  skipped : UInt64 := 0
  /-- The sequence number of the last one. -/
  last : UInt64 := 0
  /-- Did the log end in a torn line? -/
  torn : Bool := false
  deriving DecidableEq, Repr

/-- What takes the commands of a log: it changes its state or refuses. -/
abbrev Visitor (σ ε : Type) := σ → Command → σ × Option ε

/-- One record in the account of a replay. -/
def Position.count (p : Position) (r : Record) : Position :=
  { p with
    records := p.records + 1
    skipped := if r.entry.command?.isNone then p.skipped + 1 else p.skipped
    last := r.sequence }

/-- Replay of up to `n` records. -/
def replayFrom {σ ε : Type} (visit : Visitor σ ε) (lift : Failure → ε) :
    Nat → Scan → Position → σ → Except ε Position × σ
  | 0, _, p, s => (.ok p, s)
  | n + 1, scan, p, s =>
    match scan.next with
    | (.error e, _) => (.error (lift e), s)
    | (.ok none, scan) => (.ok { p with torn := scan.torn }, s)
    | (.ok (some r), scan) =>
      match r.entry.command? with
      | none => replayFrom visit lift n scan (p.count r) s
      | some c =>
        match visit s c with
        | (s, some e) => (.error e, s)
        | (s, none) => replayFrom visit lift n scan (p.count r) s

/-- Replay of a whole log; `lift` says how the visitor's failures include those of the log. A log
that is missing holds no records. -/
def replay {σ ε : Type} (visit : Visitor σ ε) (lift : Failure → ε) (scan : Option Scan) (s : σ) :
    Except ε Position × σ :=
  match scan with
  | some scan => replayFrom visit lift (scan.ahead.length + 1) scan {} s
  | none => (.ok {}, s)

end DurableKV.Log
