import ZkLlmGateway.Client.Conversation

/-!
# The interactive mode

Every line that is read is a command for the agent, or a message that is sent.  An
interactive session does what these make of the agent one after the other.  Only a line
that says so ends it, or a line that cannot be read: after the end of the input empty lines
are read for ever.
-/

namespace ZkLlmGateway.Client

open ZkLlmGateway.Encoding ZkLlmGateway.Common ZkLlmGateway.Gateway

/-! ## Lines -/

/-- What a line asks for. -/
inductive Command
  | blank
  | exit
  | help
  | perform (op : AgentOp)

def Command.read (line : Text) : Command :=
  let line := trim line
  if line = [] then .blank
  else if line = text "/exit" ∨ line = text "/quit" then .exit
  else if line = text "/help" then .help
  else if let some rest := line.dropPrefix? (text "/remember ") then
    .perform (.remember rest [])
  else if line = text "/memory" then .perform .memory
  else if let some rest := line.dropPrefix? (text "/search ") then .perform (.search rest 10)
  else if let some rest := line.dropPrefix? (text "/redact ") then .perform (.redactionTerm rest)
  else if let some rest := line.dropPrefix? (text "/system ") then .perform (.system rest)
  else .perform (.chat line false)

def Command.op : Command → Option AgentOp
  | .perform op => some op
  | _ => none

theorem Command.op_eq_some_iff {command : Command} {op : AgentOp} :
    command.op = some op ↔ command = .perform op := by
  cases command <;> simp [Command.op]

/-- `read_line`, where a line may be unreadable.  At the end of the input it reads nothing. -/
def readLine : List (Option Text) → Option Text × List (Option Text)
  | [] => (some [], [])
  | line :: unread => (line, unread)

/-! ## What is printed -/

def bannerText : Text :=
  text ("Interactive mode. Commands: /help, /exit, /remember <text>, /memory, /search <query>, " ++
    "/redact <term>, /system <prompt>")

def helpText : Text :=
  text ("/exit | /quit\n  Exit\n\n/remember <text>\n  Store a memory item locally\n\n" ++
    "/memory\n  List stored memory\n\n/search <query>\n" ++
    "  Search memory and older messages locally\n\n/redact <term>\n" ++
    "  Add a custom term to redact\n\n/system <prompt>\n  Set the system prompt (local)\n")

def memoryLines (items : List MemoryItem) : List Text :=
  if items = [] then [text "(no memory items)"]
  else items.zipIdx.map fun (item, i) => decimal (i + 1) ++ text ". " ++ item.text.take 120

def hitLines (found : RetrievedBundle) : List Text :=
  if found.memories = [] ∧ found.recalled = [] then [text "(no hits)"]
  else
    (if found.memories = [] then []
      else text "[Memory]" :: found.memories.zipIdx.map fun (doc, i) =>
        text "- M" ++ decimal (i + 1) ++ text ": " ++ doc.text.take 160) ++
    (if found.recalled = [] then []
      else text "[Recall]" :: found.recalled.zipIdx.map fun (message, i) =>
        text "- R" ++ decimal (i + 1) ++ text " " ++ message.role ++ text ": " ++
          message.content.take 160)

/-- What is printed of a reply; an error is printed elsewhere. -/
def AgentReply.printed (op : AgentOp) : AgentReply → List Text
  | .chat (.ok out) => [out]
  | .chat (.error _) => []
  | .memory items => memoryLines items
  | .search found => hitLines found
  | .ok => match op with
    | .remember _ _ => [text "(stored memory item)"]
    | .redactionTerm _ => [text "(added custom redaction term)"]
    | .system _ => [text "(updated system prompt)"]
    | _ => []
  | _ => []

/-! ## A session -/

inductive ReplEnd
  | exit
  | readStdin

/-- An interactive session: what is left of the input, what it has read of it, what it has
performed and printed, and how it has ended. -/
structure Repl (F : Type) where
  agent : PersistedAgent F
  unread : List (Option Text)
  lines : List (Option Text)
  history : List Performed
  printed : List Text
  ended : Option ReplEnd

namespace Repl

variable {F : Type}

def enter (agent : PersistedAgent F) (input : List (Option Text)) : Repl F where
  agent := agent
  unread := input
  lines := []
  history := []
  printed := [bannerText]
  ended := none

def hear (repl : Repl F) : Repl F :=
  { repl with
    unread := (readLine repl.unread).2
    lines := repl.lines ++ [(readLine repl.unread).1] }

/-- An operation has been performed for the next line. -/
def answer (repl : Repl F) (op : AgentOp) (agent : PersistedAgent F) (reply : AgentReply) :
    Repl F :=
  { repl with
    agent := agent
    history := repl.history ++ [⟨repl.lines.length, op, some reply⟩]
    printed := repl.printed ++ reply.printed op }

variable [Field F] [LinearOrder F]

/-- One round of `repl`. -/
inductive Round (context : AgentContext F) (repl : Repl F) : Repl F → Prop
  | fail (isRead : (readLine repl.unread).1 = none) :
      Round context repl { repl.hear with ended := some .readStdin }
  | blank {line : Text} (isRead : (readLine repl.unread).1 = some line)
      (isCommand : Command.read line = .blank) : Round context repl repl.hear
  | exit {line : Text} (isRead : (readLine repl.unread).1 = some line)
      (isCommand : Command.read line = .exit) :
      Round context repl { repl.hear with ended := some .exit }
  | help {line : Text} (isRead : (readLine repl.unread).1 = some line)
      (isCommand : Command.read line = .help) :
      Round context repl { repl.hear with printed := repl.printed ++ [helpText] }
  | perform {line : Text} {op : AgentOp} {next : PersistedAgent F} {reply : AgentReply}
      (isRead : (readLine repl.unread).1 = some line)
      (isCommand : Command.read line = .perform op)
      (performs : Performs context repl.agent op next reply) :
      Round context repl (repl.answer op next reply).hear

/-- What a session comes to. -/
inductive Reaches (context : AgentContext F) (start : Repl F) : Repl F → Prop
  | refl : Reaches context start start
  | round {repl next : Repl F} (before : Reaches context start repl) (goesOn : repl.ended = none)
      (isRound : Round context repl next) : Reaches context start next

end Repl

/-! ## What a session does -/

/-- The operation that a line asks for. -/
def lineOp (line : Option Text) : Option AgentOp :=
  line.bind fun line => (Command.read line).op

/-- How a line ends the session. -/
def lineEnd : Option Text → Option ReplEnd
  | none => some .readStdin
  | some line => match Command.read line with
    | .exit => some .exit
    | _ => none

/-- The operations that the lines ask for, with the numbers of the lines. -/
def lineOps (lines : List (Option Text)) : List (Nat × AgentOp) :=
  lines.zipIdx.filterMap fun (line, n) => (lineOp line).map fun op => (n, op)

/-- The exchange that is made of a line. -/
def exchangeOf : Performed → Option Exchange
  | ⟨n, .chat message _, some (.chat outcome)⟩ => some ⟨n, message, outcome.toOption⟩
  | _ => none

def commandWords : List Text :=
  [[], text "/exit", text "/quit", text "/help", text "/memory"]

def commandStarts : List Text :=
  [text "/remember ", text "/search ", text "/redact ", text "/system "]

/-- A trimmed line that is no command. -/
def IsMessage (line : Text) : Prop :=
  line ∉ commandWords ∧ ∀ start ∈ commandStarts, ¬start <+: line

instance (line : Text) : Decidable (IsMessage line) :=
  inferInstanceAs (Decidable (_ ∧ _))

section Lines

theorem dropPrefix?_eq_none_iff {line start : Text} :
    line.dropPrefix? start = none ↔ ¬start <+: line := by
  rw [← not_iff_not, not_not, ← ne_eq, Option.ne_none_iff_exists']
  constructor
  · rintro ⟨rest, dropped⟩
    rcases List.dropPrefix?_eq_some_iff.mp dropped with ⟨same, rfl, equal⟩
    rw [eq_of_beq equal]
    exact List.prefix_append start rest
  · rintro ⟨rest, rfl⟩
    exact ⟨rest, List.dropPrefix?_eq_some_iff.mpr ⟨start, rfl, BEq.rfl⟩⟩

/-- A line is sent as it is, unless it is a command. -/
theorem read_eq_chat_iff {line message : Text} {streamed : Bool} :
    Command.read line = .perform (.chat message streamed) ↔
      message = trim line ∧ streamed = false ∧ IsMessage message := by
  have words : IsMessage message ↔ (message ≠ [] ∧ message ≠ text "/exit" ∧
      message ≠ text "/quit" ∧ message ≠ text "/help" ∧ message ≠ text "/memory") ∧
      message.dropPrefix? (text "/remember ") = none ∧
      message.dropPrefix? (text "/search ") = none ∧
      message.dropPrefix? (text "/redact ") = none ∧
      message.dropPrefix? (text "/system ") = none := by
    simp only [IsMessage, commandWords, commandStarts, dropPrefix?_eq_none_iff, List.mem_cons,
      List.not_mem_nil, or_false, not_or, forall_eq_or_imp, forall_eq, ne_eq]
  rw [words, Command.read]
  generalize trim line = trimmed
  constructor
  · intro isChat
    by_cases blank : trimmed = []
    · rw [if_pos blank] at isChat
      cases isChat
    by_cases exits : trimmed = text "/exit" ∨ trimmed = text "/quit"
    · rw [if_neg blank, if_pos exits] at isChat
      cases isChat
    by_cases helps : trimmed = text "/help"
    · rw [if_neg blank, if_neg exits, if_pos helps] at isChat
      cases isChat
    rw [if_neg blank, if_neg exits, if_neg helps] at isChat
    rcases remembers : trimmed.dropPrefix? (text "/remember ") with _ | rest
    case some =>
      rw [remembers] at isChat
      cases isChat
    by_cases recalls : trimmed = text "/memory"
    · rw [remembers, if_pos recalls] at isChat
      cases isChat
    rw [remembers] at isChat
    simp only [if_neg recalls] at isChat
    rcases searches : trimmed.dropPrefix? (text "/search ") with _ | rest
    case some =>
      rw [searches] at isChat
      cases isChat
    rw [searches] at isChat
    simp only at isChat
    rcases redacts : trimmed.dropPrefix? (text "/redact ") with _ | rest
    case some =>
      rw [redacts] at isChat
      cases isChat
    rw [redacts] at isChat
    simp only at isChat
    rcases sets : trimmed.dropPrefix? (text "/system ") with _ | rest
    case some =>
      rw [sets] at isChat
      cases isChat
    rw [sets] at isChat
    cases isChat
    exact ⟨rfl, rfl, ⟨blank, fun isExit => exits (.inl isExit), fun isQuit => exits (.inr isQuit),
      helps, recalls⟩, remembers, searches, redacts, sets⟩
  · rintro ⟨rfl, rfl, ⟨notBlank, notExit, notQuit, notHelp, notMemory⟩, notRemember, notSearch,
      notRedact, notSystem⟩
    rw [if_neg notBlank, if_neg (not_or.mpr ⟨notExit, notQuit⟩), if_neg notHelp, notRemember]
    simp only [if_neg notMemory, notSearch, notRedact, notSystem]

end Lines

/-- The operations, performed one after the other, make `final` of the agent.  They add the
questions with their answers and the notes, and the answers are printed. -/
structure Conversed {F : Type} [Field F] [LinearOrder F] (context : AgentContext F)
    (agent : PersistedAgent F) (ops : List (Nat × AgentOp)) (history : List Performed)
    (printed : List Text) (final : PersistedAgent F) : Prop where
  inOrder : history.map (fun performed => (performed.n, performed.op)) = ops
  sequential : Sequential context agent history final
  questions : (history.filterMap exchangeOf).map
    (fun exchange => (exchange.n, exchange.question)) = ops.filterMap questionOf
  messages : final.session.messages =
    agent.session.messages ++ (history.filterMap exchangeOf).flatMap Exchange.messages
  memory : final.session.memory.map MemoryItem.noted =
    agent.session.memory.map MemoryItem.noted ++ (ops.filterMap noteOf).flatMap Note.items
  printed : ((history.filterMap exchangeOf).filterMap Exchange.answer).Sublist printed

/-- A session has read its input from the beginning, with empty lines after it, and has done what
the lines ask for, each before the next is read.  It is over with the first line that ends it. -/
structure Interactive {F : Type} [Field F] [LinearOrder F] (context : AgentContext F)
    (agent : PersistedAgent F) (input : List (Option Text)) (repl : Repl F) : Prop where
  reads : ∃ count, repl.lines ++ repl.unread = input ++ .replicate count (some [])
  ends : repl.ended = repl.lines.getLast?.bind lineEnd
  goesOn : ∀ line ∈ repl.lines.dropLast, lineEnd line = none
  conversed : Conversed context agent (lineOps repl.lines) repl.history repl.printed repl.agent

section Interactive

variable {F : Type} [Field F] [LinearOrder F] {context : AgentContext F}
  {agent : PersistedAgent F} {input : List (Option Text)} {repl next : Repl F}

theorem filterMap_concat {α β : Type} (choose : α → Option β) (list : List α) (last : α) :
    (list ++ [last]).filterMap choose = list.filterMap choose ++ (choose last).toList := by
  rw [List.filterMap_append]
  cases isChosen : choose last with
  | none => rw [List.filterMap_cons_none isChosen]; rfl
  | some item => rw [List.filterMap_cons_some isChosen]; rfl

theorem lineOps_append (lines : List (Option Text)) (line : Option Text) :
    lineOps (lines ++ [line]) =
      lineOps lines ++ ((lineOp line).map fun op => (lines.length, op)).toList := by
  rw [lineOps, List.zipIdx_append, Nat.zero_add, List.zipIdx_singleton, filterMap_concat]
  rfl

theorem exists_reads {lines unread : List (Option Text)}
    (reads : ∃ count, lines ++ unread = input ++ .replicate count (some [])) :
    ∃ count, (lines ++ [(readLine unread).1]) ++ (readLine unread).2 =
      input ++ .replicate count (some []) := by
  rcases reads with ⟨count, same⟩
  cases unread with
  | nil =>
      refine ⟨count + 1, ?_⟩
      rw [List.append_nil] at same
      rw [same, readLine, List.append_nil, List.append_assoc, List.replicate_succ']
  | cons line unread =>
      refine ⟨count, ?_⟩
      rw [readLine, List.append_assoc]
      exact same

/-- What a round does with the line that it reads. -/
structure Repl.Answers (context : AgentContext F) (repl next : Repl F) (line : Option Text) :
    Prop where
  unread : next.unread = (readLine repl.unread).2
  lines : next.lines = repl.lines ++ [line]
  ended : next.ended = lineEnd line
  performed :
    (lineOp line = none ∧ next.agent = repl.agent ∧ next.history = repl.history ∧
      repl.printed <+: next.printed) ∨
    ∃ op reply, lineOp line = some op ∧ Performs context repl.agent op next.agent reply ∧
      next.history = repl.history ++ [⟨repl.lines.length, op, some reply⟩] ∧
      next.printed = repl.printed ++ reply.printed op

theorem Repl.Round.answers (isOpen : repl.ended = none) (round : Repl.Round context repl next) :
    repl.Answers context next (readLine repl.unread).1 := by
  cases round with
  | fail isRead =>
      rw [isRead]
      exact ⟨rfl, by rw [← isRead]; rfl, rfl, .inl ⟨rfl, rfl, rfl, List.prefix_rfl⟩⟩
  | blank isRead isCommand =>
      rw [isRead]
      refine ⟨rfl, by rw [← isRead]; rfl, ?_, .inl ⟨?_, rfl, rfl, List.prefix_rfl⟩⟩
      · rw [lineEnd, isCommand]
        exact isOpen
      · exact congrArg Command.op isCommand
  | exit isRead isCommand =>
      rw [isRead]
      refine ⟨rfl, by rw [← isRead]; rfl, ?_, .inl ⟨?_, rfl, rfl, List.prefix_rfl⟩⟩
      · rw [lineEnd, isCommand]
      · exact congrArg Command.op isCommand
  | help isRead isCommand =>
      rw [isRead]
      refine ⟨rfl, by rw [← isRead]; rfl, ?_, .inl ⟨?_, rfl, rfl, List.prefix_append _ _⟩⟩
      · rw [lineEnd, isCommand]
        exact isOpen
      · exact congrArg Command.op isCommand
  | perform isRead isCommand performs =>
      rw [isRead]
      refine ⟨rfl, by rw [← isRead]; rfl, ?_, .inr ⟨_, _, ?_, performs, rfl, rfl⟩⟩
      · rw [lineEnd, isCommand]
        exact isOpen
      · exact congrArg Command.op isCommand

/-- What an operation adds to the messages, and what it prints. -/
theorem Performs.exchange {agent next : PersistedAgent F} {op : AgentOp} {reply : AgentReply}
    (n : Nat) (performs : Performs context agent op next reply) :
    (exchangeOf ⟨n, op, some reply⟩).map (fun exchange => (exchange.n, exchange.question)) =
        questionOf (n, op) ∧
      next.session.messages = agent.session.messages ++
        (exchangeOf ⟨n, op, some reply⟩).toList.flatMap Exchange.messages ∧
      ((exchangeOf ⟨n, op, some reply⟩).bind Exchange.answer).toList.Sublist
        (reply.printed op) := by
  cases performs with
  | @chat message streamed environment outcome next localAi sends write =>
      refine ⟨rfl, ?_, ?_⟩
      · rw [session_call]
        rcases id sends with ⟨_, _, _, _, _, same⟩
        rw [IndexedAgent.call, same, messages_of_sends n sends]
        exact congrArg _ (List.append_nil _).symm
      · cases outcome with
        | error problem => exact .refl _
        | ok out => exact .refl _
  | _ => exact ⟨rfl, (List.append_nil _).symm, List.nil_sublist _⟩

theorem Conversed.start (agent : PersistedAgent F) (printed : List Text) :
    Conversed context agent [] [] printed agent where
  inOrder := rfl
  sequential := .nil
  questions := rfl
  messages := (List.append_nil _).symm
  memory := (List.append_nil _).symm
  printed := List.nil_sublist printed

theorem Conversed.print {ops : List (Nat × AgentOp)} {history : List Performed}
    {printed more : List Text} {final : PersistedAgent F}
    (conversed : Conversed context agent ops history printed final) (kept : printed <+: more) :
    Conversed context agent ops history more final :=
  { conversed with printed := conversed.printed.trans kept.sublist }

theorem Conversed.perform {ops : List (Nat × AgentOp)} {history : List Performed}
    {printed : List Text} {final next : PersistedAgent F} {op : AgentOp} {reply : AgentReply}
    (conversed : Conversed context agent ops history printed final) (n : Nat)
    (performs : Performs context final op next reply) :
    Conversed context agent (ops ++ [(n, op)]) (history ++ [⟨n, op, some reply⟩])
      (printed ++ reply.printed op) next := by
  rcases performs.exchange n with ⟨asked, said, shown⟩
  rcases performs.notes n with ⟨notes, isNotes, noted⟩
  constructor
  · rw [List.map_append, conversed.inOrder]
    rfl
  · exact conversed.sequential.perform performs
  · rw [filterMap_concat, List.map_append, conversed.questions, filterMap_concat, ← asked]
    cases exchangeOf ⟨n, op, some reply⟩ <;> rfl
  · rw [said, conversed.messages, filterMap_concat, List.flatMap_append, List.append_assoc]
  · rw [noted, conversed.memory, filterMap_concat, List.flatMap_append, List.append_assoc, isNotes]
  · rw [filterMap_concat, List.filterMap_append]
    apply conversed.printed.append
    cases made : exchangeOf ⟨n, op, some reply⟩ with
    | none => exact List.nil_sublist _
    | some exchange =>
        rw [made, Option.bind_some] at shown
        cases isAnswer : exchange.answer with
        | none =>
            rw [Option.toList_some, List.filterMap_cons_none isAnswer]
            exact List.nil_sublist _
        | some out =>
            rw [Option.toList_some, List.filterMap_cons_some isAnswer]
            rw [isAnswer] at shown
            exact shown

theorem Interactive.round (interactive : Interactive context agent input repl)
    (isOpen : repl.ended = none) (round : Repl.Round context repl next) :
    Interactive context agent input next := by
  have answers := round.answers isOpen
  constructor
  · rw [answers.lines, answers.unread]
    exact exists_reads interactive.reads
  · rw [answers.ended, answers.lines, List.getLast?_concat, Option.bind_some]
  · rw [answers.lines, List.dropLast_concat]
    intro line member
    by_cases isLast : some line = repl.lines.getLast?
    · have ends := interactive.ends
      rw [isOpen, ← isLast] at ends
      exact ends.symm
    · exact interactive.goesOn line (List.mem_dropLast_of_mem_of_ne_getLast? member isLast)
  · rw [answers.lines, lineOps_append]
    rcases answers.performed with ⟨asks, same, history, kept⟩ |
      ⟨op, reply, asks, performs, history, printed⟩
    · rw [asks, same, history, Option.map_none, Option.toList_none, List.append_nil]
      exact interactive.conversed.print kept
    · rw [asks, history, printed]
      exact interactive.conversed.perform repl.lines.length performs

theorem interactive_of_reaches (reaches : Repl.Reaches context (.enter agent input) repl) :
    Interactive context agent input repl := by
  induction reaches with
  | refl =>
      exact ⟨⟨0, (List.append_nil _).symm⟩, rfl, by rintro _ ⟨⟩, .start agent [bannerText]⟩
  | round before isOpen isRound inductionHypothesis =>
      exact inductionHypothesis.round isOpen isRound

/-- The questions are the lines that are no commands. -/
theorem mem_questions_iff {lines : List (Option Text)} {n : Nat} {question : Text} :
    (n, question) ∈ (lineOps lines).filterMap questionOf ↔
      ∃ line, lines[n]? = some (some line) ∧ question = trim line ∧ IsMessage question := by
  constructor
  · intro asked
    rcases List.mem_filterMap.mp asked with ⟨⟨number, op⟩, isOp, isQuestion⟩
    rcases List.mem_filterMap.mp isOp with ⟨⟨heard, index⟩, isLine, asks⟩
    rcases Option.map_eq_some_iff.mp asks with ⟨_, isLineOp, ⟨⟩⟩
    cases op with
    | chat message streamed =>
        cases isQuestion
        cases heard with
        | none => cases isLineOp
        | some line =>
            have isCommand := Command.op_eq_some_iff.mp isLineOp
            rcases read_eq_chat_iff.mp isCommand with ⟨same, _, isMessage⟩
            exact ⟨line, List.mem_zipIdx_iff_getElem?.mp isLine, same, isMessage⟩
    | _ => cases isQuestion
  · rintro ⟨line, isLine, same, isMessage⟩
    have isCommand := read_eq_chat_iff.mpr ⟨same, rfl, isMessage⟩
    apply List.mem_filterMap.mpr
    refine ⟨(n, .chat question false), ?_, rfl⟩
    apply List.mem_filterMap.mpr
    refine ⟨(some line, n), List.mem_zipIdx_iff_getElem?.mpr isLine, ?_⟩
    have asks : lineOp (some line) = some (.chat question false) := congrArg Command.op isCommand
    simp only [asks, Option.map_some]

/-- At the end of the input nothing happens any more, but the session is not over. -/
theorem Repl.round_iff_of_ended (isOver : repl.unread = []) :
    repl.Round context next ↔ next = repl.hear := by
  have isRead : (readLine repl.unread).1 = some [] := by
    rw [isOver]
    rfl
  constructor
  · intro round
    cases round with
    | fail unreadable => rw [isRead] at unreadable; cases unreadable
    | blank => rfl
    | exit other isCommand | help other isCommand | perform other isCommand =>
        rw [isRead] at other
        cases other
        cases isCommand
  · rintro rfl
    exact .blank isRead rfl

theorem Interactive.ended_of_forall (interactive : Interactive context agent input repl)
    (goesOn : ∀ line ∈ input, lineEnd line = none) : repl.ended = none := by
  rw [interactive.ends]
  cases isLast : repl.lines.getLast? with
  | none => rfl
  | some line =>
      rcases interactive.reads with ⟨count, same⟩
      have member : line ∈ input ++ .replicate count (some []) := by
        rw [← same]
        exact List.mem_append_left _ (List.mem_of_getLast? isLast)
      rcases List.mem_append.mp member with within | isBlank
      · exact goesOn line within
      · rw [List.eq_of_mem_replicate isBlank]
        rfl

/-- **An interactive session is a conversation.**  At any time it has done what the lines that it
has read ask for: the lines that are no commands are in the session, each with its answer directly
behind it, and the notes are in the memory.  Input that does not end it keeps it going for ever. -/
theorem interactive_conversed (reaches : Repl.Reaches context (.enter agent input) repl) :
    Interactive context agent input repl ∧
      (∀ n question, (n, question) ∈ (repl.history.filterMap exchangeOf).map
          (fun exchange => (exchange.n, exchange.question)) ↔
        ∃ line, repl.lines[n]? = some (some line) ∧ question = trim line ∧ IsMessage question) ∧
      ((∀ line ∈ input, lineEnd line = none) → repl.ended = none) ∧
      (repl.unread = [] → ∀ next, repl.Round context next ↔ next = repl.hear) := by
  have interactive := interactive_of_reaches reaches
  refine ⟨interactive, fun n question => ?_, interactive.ended_of_forall,
    fun isOver next => Repl.round_iff_of_ended isOver⟩
  rw [interactive.conversed.questions]
  exact mem_questions_iff

end Interactive

/-! ## A question, and the end -/

noncomputable def bareRepl : Repl ℝ :=
  .enter { bareAgent with file := none, prompted := [] }
    [some (text "Hi there\n"), some (text "/quit\n")]

/-- The question is in the session, although there is no ticket for it. -/
theorem interactive_bareRepl : ∃ repl,
    Repl.Reaches plainContext bareRepl repl ∧ repl.ended = some .exit ∧
      Interactive plainContext bareRepl.agent bareRepl.unread repl ∧
      repl.agent.session.messages = [IndexedAgent.userMessage (text "Hi there")] := by
  rcases exists_sends_withoutTickets with ⟨next, sends⟩
  have asks : Command.read (text "Hi there\n") = .perform (.chat (text "Hi there") false) :=
    read_eq_chat_iff.mpr ⟨by decide, rfl, by decide⟩
  have performs : Performs plainContext bareRepl.agent (.chat (text "Hi there") false) _ _ :=
    .chat rfl sends .written
  have asked : Repl.Round plainContext bareRepl _ := .perform rfl asks performs
  have quits : Command.read (text "/quit\n") = .exit := rfl
  have reaches := (Repl.Reaches.refl.round rfl asked).round rfl (.exit rfl quits)
  have conversed := (interactive_conversed reaches).1
  exact ⟨_, reaches, rfl, conversed, conversed.conversed.messages⟩

end ZkLlmGateway.Client
