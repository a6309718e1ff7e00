import DurableKV.Proofs.Halting
import DurableKV.Proofs.Lines
import DurableKV.Proofs.Refinement
import DurableKV.Proofs.Replies
import DurableKV.Proofs.Requests

/-!
# Serving a whole input

What a node makes of the lines of an input, one after the other. `Transcript` is the account of it,
over any bytes: the lines that are not blank are answered one by one, up to the end of the input, to
a line that is not UTF-8, or to a line that ends the node. One line more in front keeps the account
(`Transcript.skip`, `Transcript.answer`), so serving always comes to one (`transcript`).

* `serve_answers_each_line`: a text has no line of the second kind, so every request line of it gets
  one reply line until the node ends.
* `serve_stops_at_bad_line`: on a log that takes whatever is written to it, client input does not
  halt a node, but a line that is not UTF-8 stops serving all the same.
-/

namespace DurableKV

/-! ## Output -/

namespace Reply

/-- A reply is one line. -/
theorem newline_notMem_text (r : Reply) : Bytes.newline ∉ Bytes.ofText r.text :=
  Json.newline_notMem_bytes _

/-- Replies as they are written, one after the other. -/
def output (replies : List Reply) : Bytes := replies.flatMap fun r => Bytes.ofText r.line

/-- What is written is cut into the texts of the replies again, with nothing behind them. -/
theorem lines_output (replies : List Reply) :
    Bytes.lines (output replies) = (replies.map fun r => Bytes.ofText r.text, []) := by
  have hline : (fun r : Reply => Bytes.ofText r.line) =
      fun r => Bytes.ofText r.text ++ [Bytes.newline] := by
    funext r
    exact Bytes.ofText_append r.text "\n"
  have hjoined : output replies = Bytes.joinLines (replies.map fun r => Bytes.ofText r.text) := by
    rw [output, hline, Bytes.joinLines, List.flatMap_map]
  rw [hjoined]
  apply Bytes.lines_joinLines_whole
  intro l hl
  obtain ⟨r, -, rfl⟩ := List.mem_map.1 hl
  exact r.newline_notMem_text

end Reply

/-! ## Requests -/

/-- Is this line handed to the node? It is if it is a text that is not blank. -/
def isRequest (line : Bytes) : Bool :=
  match Bytes.toText? line with
  | some text => ! Text.isAllBlank text
  | none => false

/-- A line that is handed to the node is a text that is not blank. -/
theorem text_of_request {line : Bytes} (h : isRequest line = true) :
    ∃ text, Bytes.toText? line = some text ∧ Text.isAllBlank text = false := by
  unfold isRequest at h
  split at h
  · rename_i text htext
    exact ⟨text, htext, by simpa using h⟩
  · cases h

/-- The lines that are handed to the node. -/
def requests (lines : List Bytes) : List Bytes := lines.filter isRequest

/-- A line that is handed to the node is one of the requests. -/
theorem requests_cons_of_request {line : Bytes} (h : isRequest line = true) (lines : List Bytes) :
    requests (line :: lines) = line :: requests lines :=
  List.filter_cons_of_pos h

/-- A line that is not handed to the node is none of the requests. -/
theorem requests_cons_of_blank {line : Bytes} (h : isRequest line = false) (lines : List Bytes) :
    requests (line :: lines) = requests lines :=
  List.filter_cons_of_neg (Bool.eq_false_iff.1 h)

/-- The requests of some lines and then others are those of the first and those of the others. -/
theorem requests_append (before after : List Bytes) :
    requests (before ++ after) = requests before ++ requests after :=
  List.filter_append ..

/-- The request lines of a text are those of its bytes. -/
theorem requests_ofText (s : String) :
    requests ((Text.lines s).map Bytes.ofText) = (Text.requests s).map Bytes.ofText := by
  have hrequest : isRequest ∘ Bytes.ofText =
      fun line => ! line.toList.all Text.whiteSpace.contains := by
    funext text
    simp only [Function.comp, isRequest, Bytes.toText?_ofText, Text.isAllBlank_eq]
  rw [requests, List.filter_map, hrequest]
  rfl

namespace Node

/-- These are the replies to lines that a node is handed one after the other: each is what the node
answers in the state that the lines before have left. -/
structure Answers (n : Node) (lines : List Bytes) (replies : List Reply) : Prop where
  /-- There is one reply for every line. -/
  length : replies.length = lines.length
  /-- Each reply is what the node answers after the lines before. -/
  each : ∀ i line reply, lines[i]? = some line → replies[i]? = some reply →
    ((n.handleAll (lines.take i)).handle line).1 = .ok reply

/-- Handling some lines is handling the first and then the others. -/
theorem handleAll_cons {n m : Node} {line : Bytes} {answer : Except ServiceError Reply}
    (h : n.handle line = (answer, m)) (lines : List Bytes) :
    n.handleAll (line :: lines) = m.handleAll lines := by
  rw [handleAll, List.foldl_cons, h]
  rfl

/-- To no lines there are no replies. -/
theorem Answers.nil (n : Node) : n.Answers [] [] := ⟨rfl, by simp⟩

/-- The reply to a line comes before the replies to the others. -/
theorem Answers.cons {n m : Node} {line : Bytes} {lines : List Bytes} {reply : Reply}
    {replies : List Reply} (h : n.handle line = (.ok reply, m)) (hrest : m.Answers lines replies) :
    n.Answers (line :: lines) (reply :: replies) where
  length := congrArg (· + 1) hrest.length
  each := by
    intro i line' reply' hline hreply
    cases i with
    | zero =>
      cases hline
      cases hreply
      exact congrArg Prod.fst h
    | succ i =>
      rw [List.take_succ_cons, handleAll_cons h]
      exact hrest.each i line' reply' hline hreply

/-- Every reply to a line is legible. -/
theorem Answers.legible {n : Node} {lines : List Bytes} {replies : List Reply}
    (h : n.Answers lines replies) : ∀ r ∈ replies, r.Legible := by
  intro r hr
  obtain ⟨i, hi, hreply⟩ := List.mem_iff_getElem.1 hr
  have hline : i < lines.length := h.length ▸ hi
  exact handle_legible
    (h.each i lines[i] r (List.getElem?_eq_getElem hline)
      (List.getElem?_eq_some_iff.2 ⟨hi, hreply⟩))

/-! ## One line of input -/

section

variable {n m : Node} {line : Bytes}

/-- A line that is no text ends the input with an error, and the node is as it was. -/
theorem serveLine_of_bad (h : Bytes.toText? line = none) :
    n.serveLine line = ⟨none, some (.io .notUtf8), n⟩ := by
  simp only [serveLine, h]

/-- A blank line is passed over. -/
theorem serveLine_of_blank (hread : Bytes.toText? line ≠ none) (h : isRequest line = false) :
    n.serveLine line = ⟨none, none, n⟩ := by
  obtain ⟨text, htext⟩ := Option.ne_none_iff_exists'.1 hread
  simp only [isRequest, htext, Bool.not_eq_false'] at h
  simp only [serveLine, htext, h, if_true]

/-- A reply of the node is written. -/
theorem serveLine_of_reply {reply : Reply} (h : isRequest line = true)
    (hhandle : n.handle line = (.ok reply, m)) : n.serveLine line = ⟨some reply, none, m⟩ := by
  obtain ⟨text, htext, hblank⟩ := text_of_request h
  simp only [serveLine, htext, hblank, Bool.false_eq_true, if_false, hhandle]

/-- An error that ends the node is written as a reply, and the input ends with it. -/
theorem serveLine_of_error {e : ServiceError} (h : isRequest line = true)
    (hhandle : n.handle line = (.error e, m)) :
    n.serveLine line = ⟨some (.error (CliError.halted e).code (CliError.halted e).message),
      some (.halted e), m⟩ := by
  obtain ⟨text, htext, hblank⟩ := text_of_request h
  simp only [serveLine, htext, hblank, Bool.false_eq_true, if_false, hhandle]

/-- A line that does not stop serving, in front of others. -/
theorem serveLines_cons {reply : Option Reply} (hserve : n.serveLine line = ⟨reply, none, m⟩)
    {lines : List Bytes} {replies : List Reply} {stop : Option CliError} {n' : Node}
    (hrest : m.serveLines lines = (replies, stop, n')) :
    n.serveLines (line :: lines) = (reply.toList ++ replies, stop, n') := by
  rw [serveLines, hserve]
  dsimp only
  rw [hrest]

/-- A line that stops serving, whatever stands behind it. -/
theorem serveLines_of_stop {reply : Option Reply} {stop : CliError}
    (hserve : n.serveLine line = ⟨reply, some stop, m⟩) (lines : List Bytes) :
    n.serveLines (line :: lines) = (reply.toList, some stop, m) := by
  rw [serveLines, hserve]

end

/-! ## All lines of an input -/

/-- How a node serves lines: up to their end, up to a line that is not UTF-8, or up to a line that
ends the node. The request lines before are answered one by one. -/
inductive Transcript (n : Node) (lines : List Bytes) :
    List Reply → Option CliError → Node → Prop where
  /-- All lines are UTF-8, and all request lines are answered. -/
  | whole {replies : List Reply} (hread : ∀ l ∈ lines, Bytes.toText? l ≠ none)
      (hanswers : n.Answers (requests lines) replies) :
      Transcript n lines replies none (n.handleAll (requests lines))
  /-- A line is not UTF-8. It gets no reply, and no line behind it is looked at. -/
  | unreadable {before after : List Bytes} {line : Bytes} {replies : List Reply}
      (hsplit : lines = before ++ line :: after) (hread : ∀ l ∈ before, Bytes.toText? l ≠ none)
      (hbad : Bytes.toText? line = none) (hanswers : n.Answers (requests before) replies) :
      Transcript n lines replies (some (.io .notUtf8)) (n.handleAll (requests before))
  /-- A line ends the node. It gets a reply with the error, and no line behind it is looked at. -/
  | halted {before after : List Bytes} {line : Bytes} {replies : List Reply} {e : ServiceError}
      {n' : Node} (hsplit : lines = before ++ line :: after)
      (hread : ∀ l ∈ before, Bytes.toText? l ≠ none) (hrequest : isRequest line = true)
      (hanswers : n.Answers (requests before) replies)
      (hend : (n.handleAll (requests before)).handle line = (.error e, n')) :
      Transcript n lines
        (replies ++ [.error (CliError.halted e).code (CliError.halted e).message])
        (some (.halted e)) n'

section

variable {n m n' : Node} {line : Bytes} {lines : List Bytes} {replies : List Reply}
  {stop : Option CliError}

/-- One blank line more in front. -/
theorem Transcript.skip (hread : Bytes.toText? line ≠ none) (hblank : isRequest line = false)
    (hrest : n.Transcript lines replies stop n') :
    n.Transcript (line :: lines) replies stop n' := by
  cases hrest with
  | whole hothers hanswers =>
    rw [← requests_cons_of_blank hblank] at hanswers ⊢
    exact .whole (List.forall_mem_cons.2 ⟨hread, hothers⟩) hanswers
  | unreadable hsplit hothers hbad hanswers =>
    rw [← requests_cons_of_blank hblank] at hanswers ⊢
    exact .unreadable (congrArg (line :: ·) hsplit) (List.forall_mem_cons.2 ⟨hread, hothers⟩) hbad
      hanswers
  | halted hsplit hothers hrequest hanswers hend =>
    rw [← requests_cons_of_blank hblank] at hanswers hend
    exact .halted (congrArg (line :: ·) hsplit) (List.forall_mem_cons.2 ⟨hread, hothers⟩) hrequest
      hanswers hend

/-- One request line more in front that is answered. -/
theorem Transcript.answer {reply : Reply} (hread : Bytes.toText? line ≠ none)
    (hfirst : isRequest line = true) (hhandle : n.handle line = (.ok reply, m))
    (hrest : m.Transcript lines replies stop n') :
    n.Transcript (line :: lines) (reply :: replies) stop n' := by
  cases hrest with
  | whole hothers hanswers =>
    have hall := hanswers.cons hhandle
    rw [← handleAll_cons hhandle]
    rw [← requests_cons_of_request hfirst] at hall ⊢
    exact .whole (List.forall_mem_cons.2 ⟨hread, hothers⟩) hall
  | unreadable hsplit hothers hbad hanswers =>
    have hall := hanswers.cons hhandle
    rw [← handleAll_cons hhandle]
    rw [← requests_cons_of_request hfirst] at hall ⊢
    exact .unreadable (congrArg (line :: ·) hsplit) (List.forall_mem_cons.2 ⟨hread, hothers⟩) hbad
      hall
  | halted hsplit hothers hrequest hanswers hend =>
    have hall := hanswers.cons hhandle
    rw [← handleAll_cons hhandle] at hend
    rw [← requests_cons_of_request hfirst] at hall hend
    exact .halted (congrArg (line :: ·) hsplit) (List.forall_mem_cons.2 ⟨hread, hothers⟩) hrequest
      hall hend

end

/-- **How a node serves lines.** -/
theorem transcript (lines : List Bytes) : (n : Node) →
    ∃ replies stop n', n.serveLines lines = (replies, stop, n') ∧
      n.Transcript lines replies stop n' := by
  induction lines with
  | nil =>
    intro n
    exact ⟨[], none, n, rfl, .whole (List.forall_mem_nil _) (.nil n)⟩
  | cons line lines ih =>
    intro n
    by_cases hread : Bytes.toText? line = none
    · exact ⟨[], _, n, serveLines_of_stop (serveLine_of_bad hread) lines,
        .unreadable (List.nil_append _).symm (List.forall_mem_nil _) hread (.nil n)⟩
    cases hrequest : isRequest line with
    | false =>
      obtain ⟨replies, stop, n', hserve, htranscript⟩ := ih n
      exact ⟨replies, stop, n', serveLines_cons (serveLine_of_blank hread hrequest) hserve,
        htranscript.skip hread hrequest⟩
    | true =>
      rcases hhandle : n.handle line with ⟨e | reply, m⟩
      · exact ⟨_, _, m, serveLines_of_stop (serveLine_of_error hrequest hhandle) lines,
          .halted (List.nil_append _).symm (List.forall_mem_nil _) hrequest (.nil n) hhandle⟩
      · obtain ⟨replies, stop, n', hserve, htranscript⟩ := ih m
        exact ⟨reply :: replies, stop, n',
          serveLines_cons (serveLine_of_reply hrequest hhandle) hserve,
          htranscript.answer hread hrequest hhandle⟩

/-- Every reply that is written is legible, the last one included if a line ends the node. -/
theorem Transcript.legible {n n' : Node} {lines : List Bytes} {replies : List Reply}
    {stop : Option CliError} (h : n.Transcript lines replies stop n') :
    ∀ r ∈ replies, r.Legible := by
  cases h with
  | whole hread hanswers => exact hanswers.legible
  | unreadable hsplit hread hbad hanswers => exact hanswers.legible
  | halted hsplit hread hrequest hanswers hend =>
    intro r hr
    rcases List.mem_append.1 hr with hr | hr
    · exact hanswers.legible r hr
    · obtain rfl := List.mem_singleton.1 hr
      trivial

/-- **One reply line for every request line.** A node serves a text. What it writes is cut at
newlines into the texts of its replies, with nothing behind the last newline. The text of a reply is
read as JSON again: as an object of its status and its data, whose own fields may stand in another
order, or as one of its status, its code and its message.

There is one reply for every line of the text that is not blank, in the order of the lines: the one
that the node gives in the state that the lines before have left. If no line ends the node, serving
ends with the text. Else the first that does gets a reply with the code of its error, serving ends
with that error, and the lines behind it are not handed to the node. -/
theorem serve_answers_each_line (n : Node) (input : String) :
    ∃ replies stop n', n.serve (Bytes.ofText input) = (replies, stop, n') ∧
      Bytes.lines (Reply.output replies) = (replies.map fun r => Bytes.ofText r.text, []) ∧
      (∀ data, .ok data ∈ replies → ∃ w,
        Json.Value.read (Bytes.ofText (Reply.ok data).text) =
          .ok (.object [("data", w), ("status", .string "ok")]) ∧ w.Rearranges data) ∧
      (∀ code message, .error code message ∈ replies →
        Json.Value.read (Bytes.ofText (Reply.error code message).text) =
          .ok (.object [("code", .string code), ("message", .string message),
            ("status", .string "error")])) ∧
      let lines := (Text.requests input).map Bytes.ofText
      ((stop = none ∧ n' = n.handleAll lines ∧ n.Answers lines replies) ∨
        ∃ before line after answered e, lines = before ++ line :: after ∧
          n.Answers before answered ∧ (n.handleAll before).handle line = (.error e, n') ∧
          replies = answered ++ [.error e.code ("node halted: " ++ e.message)] ∧
          stop = some (.halted e)) := by
  obtain ⟨replies, stop, n', hserve, htranscript⟩ :=
    transcript ((Text.lines input).map Bytes.ofText) n
  rw [← inputLines_ofText] at hserve
  refine ⟨replies, stop, n', hserve, Reply.lines_output replies,
    fun data hdata => Reply.read_text_ok (htranscript.legible _ hdata),
    fun code message _ => Reply.read_text_error code message, ?_⟩
  dsimp only
  rw [← requests_ofText]
  cases htranscript with
  | whole hread hanswers => exact Or.inl ⟨rfl, rfl, hanswers⟩
  | unreadable hsplit hread hbad hanswers =>
    -- every line of a text is a text
    rename_i before after line
    have hmem : line ∈ (Text.lines input).map Bytes.ofText := by
      rw [hsplit]
      exact List.mem_append_cons_self
    obtain ⟨text, -, rfl⟩ := List.mem_map.1 hmem
    rw [Bytes.toText?_ofText] at hbad
    cases hbad
  | halted hsplit hread hrequest hanswers hend =>
    rename_i before after line answered e
    refine Or.inr ⟨requests before, line, requests after, answered, e, ?_, hanswers, hend, rfl, rfl⟩
    rw [hsplit, requests_append, requests_cons_of_request hrequest]

/-! ## Inputs that are no text -/

/-- On a log that takes whatever is written to it, a leader fails to accept a command only if it had
halted. -/
theorem halted_of_refusal {r r' : Replica} (hhealthy : r.machine.log.medium.Healthy)
    (hleads : r.isLeader = true) {c : Command} {timeout : Nat} {e : SubmitError}
    (h : r.submit c.encode timeout false = (.error e, r')) : r.halted ≠ none ∧ r' = r := by
  cases hhalted : r.halted with
  | none =>
    rw [Replica.submit_of_ready ⟨Replica.role_of_isLeader hleads, hhalted, hhealthy⟩
      c.decode_encode] at h
    cases h
  | some reason =>
    rw [Replica.submit_of_halted hhalted] at h
    cases h
    exact ⟨Option.some_ne_none _, rfl⟩

section

variable {n n' : Node}

/-- A request on a log that takes whatever is written to it: the log stays so, the node neither
halts nor comes back from a halt, and it ends only if it had halted. -/
theorem Execution.of_healthy {request : Request} {answer : Except ServiceError Reply}
    (h : n.Execution false request (answer, n')) (hhealthy : n.replica.machine.log.medium.Healthy) :
    n'.replica.machine.log.medium.Healthy ∧ n'.replica.halted = n.replica.halted ∧
      ∀ e, concluded answer = .error e → n.replica.halted ≠ none := by
  cases h with
  | unsubmitted hnone hreplica hordinary =>
    obtain ⟨voters, hvoters⟩ := replica_of_unsubmitted hreplica
    obtain ⟨reply, hconcluded, -⟩ := concluded_of_ordinary hordinary
    rw [hvoters, hconcluded]
    refine ⟨hhealthy, rfl, ?_⟩
    intro e hend
    cases hend
  | failed hsubmits hsubmit =>
    obtain ⟨hhalted, hsame⟩ := halted_of_refusal hhealthy hsubmits.leads hsubmit
    rw [hsame]
    exact ⟨hhealthy, rfl, fun _ _ => hhalted⟩
  | done hsubmits hsubmit =>
    obtain ⟨entry, -, hrunning, -, haccept⟩ := Replica.submit_eq_ok hsubmit
    rw [haccept]
    refine ⟨Replica.healthy_accept hhealthy entry, rfl, ?_⟩
    intro e hend
    cases hend
  | conflict hsubmits hsubmit hstore =>
    obtain ⟨entry, -, hrunning, -, haccept⟩ := Replica.submit_eq_ok hsubmit
    rw [haccept]
    refine ⟨Replica.healthy_accept hhealthy entry, rfl, ?_⟩
    intro e hend
    cases hend

/-- On a healthy log a line leaves the log healthy and does not halt the replica; the node ends only
if it had halted before. -/
theorem handle_of_healthy (hhealthy : n.replica.machine.log.medium.Healthy) {line : Bytes}
    {answer : Except ServiceError Reply} (h : n.handle line = (answer, n')) :
    n'.replica.machine.log.medium.Healthy ∧ n'.replica.halted = n.replica.halted ∧
      ∀ e, answer = .error e → n.replica.halted ≠ none := by
  rw [← handleWhile_false] at h
  cases hread : Request.read line with
  | error cause =>
    rw [handleWhile_of_unreadable hread] at h
    cases h
    refine ⟨hhealthy, rfl, ?_⟩
    intro e hend
    cases hend
  | ok request =>
    rcases hexecute : n.executeWhile false request with ⟨given, after⟩
    have hexecution := n.execution false request
    rw [hexecute] at hexecution
    rw [handleWhile_of_read hread hexecute] at h
    cases h
    exact hexecution.of_healthy hhealthy

/-- On a healthy log lines leave the log healthy and do not halt the replica. -/
theorem handleAll_of_healthy (lines : List Bytes) : {n : Node} →
    n.replica.machine.log.medium.Healthy →
    (n.handleAll lines).replica.machine.log.medium.Healthy ∧
      (n.handleAll lines).replica.halted = n.replica.halted := by
  induction lines with
  | nil =>
    intro n hhealthy
    exact ⟨hhealthy, rfl⟩
  | cons line lines ih =>
    intro n hhealthy
    rcases hhandle : n.handle line with ⟨answer, m⟩
    obtain ⟨hlog, hkept, -⟩ := handle_of_healthy hhealthy hhandle
    obtain ⟨hlog', hkept'⟩ := ih hlog
    rw [handleAll_cons hhandle]
    exact ⟨hlog', hkept'.trans hkept⟩

end

/-- **Serving stops before the end of an input at a line that is not UTF-8**, and at no other as
long as the node has not halted. A node whose log takes whatever is written to it serves any bytes.
That changes nothing about whether the node has halted. If serving stops with a failure, the node
had halted or the failure is that of a line that is not UTF-8; that line and all lines behind it get
no reply, and only the request lines before it are answered. -/
theorem serve_stops_at_bad_line {n : Node} (hhealthy : n.replica.machine.log.medium.Healthy)
    (input : Bytes) :
    ∃ replies stop n', n.serve input = (replies, stop, n') ∧
      n.Transcript (inputLines input) replies stop n' ∧
      n'.replica.halted = n.replica.halted ∧
      ∀ e, stop = some e → n.replica.halted ≠ none ∨
        (e = .io .notUtf8 ∧ ∃ line ∈ inputLines input, Bytes.toText? line = none) := by
  obtain ⟨replies, stop, n', hserve, htranscript⟩ := transcript (inputLines input) n
  refine ⟨replies, stop, n', hserve, htranscript, ?_⟩
  cases htranscript with
  | whole hread hanswers =>
    refine ⟨(handleAll_of_healthy _ hhealthy).2, ?_⟩
    intro e hstop
    cases hstop
  | unreadable hsplit hread hbad hanswers =>
    refine ⟨(handleAll_of_healthy _ hhealthy).2, ?_⟩
    intro e hstop
    cases hstop
    refine Or.inr ⟨rfl, _, ?_, hbad⟩
    rw [hsplit]
    exact List.mem_append_cons_self
  | halted hsplit hread hrequest hanswers hend =>
    obtain ⟨hlog, hkept⟩ := handleAll_of_healthy _ hhealthy
    obtain ⟨-, hkept', hends⟩ := handle_of_healthy hlog hend
    refine ⟨hkept'.trans hkept, ?_⟩
    intro e hstop
    have hhalted := hends _ rfl
    rw [hkept] at hhalted
    exact Or.inl hhalted

/-- A node that has not halted is asked for its state, and then given a byte that no text holds. -/
theorem serve_stops_behind_request :
    let config : Config := { nodeId := "n", dataDir := "data" }
    let input := Bytes.ofText "[\"status\"]\n" ++ [0xFF, Bytes.newline]
    ∃ node d', boot {} config true Nat.repr = (.ok node, d') ∧
      ∃ replies n', node.serve input = (replies, some (.io .notUtf8), n') ∧
        n'.replica.halted = none := by
  let config : Config := { nodeId := "n", dataDir := "data" }
  let input := Bytes.ofText "[\"status\"]\n" ++ [0xFF, Bytes.newline]
  have hfresh : ({} : Disk).HoldsNoLog config.dataDir := Disk.holdsNoLog_empty
  obtain ⟨machine, stats, hboot, hrestored⟩ := boot_of_holdsNoLog hfresh true Nat.repr
  let node := ofMachine config true Nat.repr machine stats
  have hhealthy : node.replica.machine.log.medium.Healthy := hrestored.healthy
  have hrunning : node.replica.halted = none := rfl
  have hbad : [0xFF] ∈ inputLines input := by decide
  refine ⟨node, _, Prod.ext hboot rfl, ?_⟩
  obtain ⟨replies, stop, n', hserve, htranscript, hkept, hstop⟩ :=
    serve_stops_at_bad_line hhealthy input
  refine ⟨replies, n', ?_, hkept.trans hrunning⟩
  cases stop with
  | none =>
    cases htranscript with
    | whole hread hanswers => exact absurd rfl (hread _ hbad)
  | some e =>
    rcases hstop e rfl with hhalted | ⟨rfl, -⟩
    · exact absurd hrunning hhalted
    · exact hserve

/-- A byte that no text holds, on a line of its own: a node that has not halted stops serving there,
and does not answer the request behind it. -/
theorem stray_byte_stops_running_node :
    let config : Config := { nodeId := "n", dataDir := "data" }
    let request := Bytes.ofText "\x7b\"op\":\"get\",\"key\":\"k\"\x7d\n"
    ∃ node d', boot {} config true Nat.repr = (.ok node, d') ∧
      node.replica.machine.log.medium.Healthy ∧ node.replica.halted = none ∧
      node.serve (0xFF :: Bytes.newline :: request) = ([], some (.io .notUtf8), node) := by
  let config : Config := { nodeId := "n", dataDir := "data" }
  have hfresh : ({} : Disk).HoldsNoLog config.dataDir := Disk.holdsNoLog_empty
  obtain ⟨machine, stats, hboot, hrestored⟩ := boot_of_holdsNoLog hfresh true Nat.repr
  exact ⟨_, _, Prod.ext hboot rfl, hrestored.healthy, rfl, rfl⟩

end Node

end DurableKV
