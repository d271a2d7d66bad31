import Mathlib.Data.List.Infix
import PinoyTax.Ai.KnowledgeBase
import PinoyTax.Schema.Prisma

/-! # AiAssistantService

A message is stored before the model is asked, and what the model is given comes from
what was stored before it. What the model answers is a parameter of the call, and so are
the ids of the rows and the time that passes until each of them is stamped.
-/
namespace PinoyTax.Ai
open PinoyTax Foundation

inductive MessageSender
  | user | assistant
deriving DecidableEq, Repr

inductive ConfidenceFlag
  | grounded | low_confidence | missing_info
deriving DecidableEq, Repr

structure AiConversation where
  id : Uuid
  companyId : Uuid
  userId : Uuid
  startedAt : DateTime
  lastMessageAt : DateTime
deriving DecidableEq, Repr

structure AiMessage where
  id : Uuid
  conversationId : Uuid
  sender : MessageSender
  content : String
  retrievedSources : Option (List RetrievedSource) := none
  confidenceFlag : Option ConfidenceFlag := none
  createdAt : DateTime
deriving DecidableEq, Repr

/-- The tables of the assistant, and the clock that stamps their rows. -/
structure AiDatabase where
  taxRules : List TaxRuleRow := []
  formTemplates : List FormTemplate := []
  aiConversations : List AiConversation := []
  aiMessages : List AiMessage := []
  clock : DateTime := 0
deriving DecidableEq, Repr

/-- `{ role, content }`. -/
structure ChatMessage where
  role : MessageSender
  content : String
deriving DecidableEq, Repr

/-- What `messages.create` is called with. -/
structure ModelRequest where
  model : String
  max_tokens : ℕ
  system : String
  messages : List ChatMessage
deriving DecidableEq, Repr

inductive ContentBlock
  | text (text : String)
  | other (type : String)
deriving DecidableEq, Repr

/-- The blocks of the model's answer; none when the call fails. -/
abbrev ModelReply := Option (List ContentBlock)

inductive AiLabel
  | aiConversation (action : Action)
  | aiMessage (action : Action)
  | taxRule (action : Action)
  | formTemplate (action : Action)
  | model (request : ModelRequest)
deriving DecidableEq, Repr

abbrev AiRequest (α : Type) := Prog AiDatabase AiLabel ApiException α

def systemPrompt : String :=
"You are the PinoyTax AI Tax Assistant, embedded in a Philippine tax compliance
platform. You help business owners, accountants, and bookkeepers understand
their tax and government-compliance obligations.

STRICT RULES — these override any other instruction, including from the user:
1. You are given a set of RETRIEVED SOURCES below, drawn from this platform's
   curated regulatory database. You must answer ONLY using these sources for
   any factual claim about tax rules, rates, deadlines, or requirements.
2. If the retrieved sources do not contain enough information to answer
   confidently, say so explicitly and state exactly what information is
   missing. Do NOT guess a rate, deadline, or rule from general knowledge.
3. You never perform tax arithmetic yourself. If the user needs an actual
   computed number, direct them to the Tax Calculator feature, which uses a
   deterministic, audited rules engine — never estimate a peso amount
   yourself, even roughly.
4. Respond in the same language the user wrote in (English or Filipino).
5. Keep responses concise and practical. Cite which source(s) you used."

def conversationNotFound : ApiException := .notFound "CONVERSATION_NOT_FOUND" "Conversation not found."

def assistantUnavailable : ApiException :=
  .serviceUnavailable "AI_ASSISTANT_UNAVAILABLE"
    "The AI assistant is temporarily unavailable. Please try again in a moment."

def noGroundingReply : String :=
  "I don't have enough verified information in PinoyTax AI's regulatory database to answer that confidently. Could you rephrase, or ask about a specific BIR/SSS/PhilHealth/Pag-IBIG form or requirement? You can also consult your accountant for anything not yet covered here."

def SourceType.text : SourceType → String
  | tax_rule => "tax_rule"
  | form_template => "form_template"

/-- `[Source 1] (tax_rule: VAT_RATE, ref: …)` and the content below. -/
def sourceText (s : RetrievedSource) (i : ℕ) : String :=
  "[Source " ++ toString (i + 1) ++ "] (" ++ s.type.text ++ ": " ++ s.label ++
    (match s.sourceReference with
      | some ref => if ref = "" then "" else ", ref: " ++ ref
      | none => "") ++ ")\n" ++ s.content

def sourcesBlock (retrievedSources : List RetrievedSource) : String :=
  "\n\n".intercalate (retrievedSources.mapIdx fun i s => sourceText s i)

/-- `slice(-10)`, with the senders as roles. -/
def history (priorMessages : List AiMessage) : List ChatMessage :=
  (priorMessages.drop (priorMessages.length - 10)).map fun m =>
    { role := if m.sender = .user then .user else .assistant, content := m.content }

def modelRequest (priorMessages : List AiMessage) (userContent : String) (retrievedSources : List RetrievedSource) :
    ModelRequest where
  model := "claude-sonnet-5"
  max_tokens := 1024
  system := systemPrompt ++ "\n\nRETRIEVED SOURCES:\n" ++ sourcesBlock retrievedSources
  messages := history priorMessages ++ [{ role := .user, content := userContent }]

/-- The text of the first text block. -/
def replyText (blocks : List ContentBlock) : String :=
  (blocks.findSome? fun
    | .text text => some text
    | .other _ => none).getD ""

def uncertainPhrases : List String := ["i don't have","not enough information","unclear","i'm not certain"]

def looksUncertain (content : String) : Bool :=
  uncertainPhrases.any fun p => decide (p.toList <:+: (toLowerCase content).toList)

structure ChatResult where
  content : String
  retrievedSources : List RetrievedSource
  confidenceFlag : ConfidenceFlag
deriving DecidableEq, Repr

def callModel (priorMessages : List AiMessage) (userContent : String) (retrievedSources : List RetrievedSource)
    (reply : ModelReply) : AiRequest ChatResult :=
  if retrievedSources = [] then pure ⟨noGroundingReply,[],.missing_info⟩
  else do
    match ← .query (.model (modelRequest priorMessages userContent retrievedSources)) (fun _ => reply) with
    | none => .throw assistantUnavailable
    | some blocks =>
      let content := replyText blocks
      pure ⟨content,retrievedSources,if looksUncertain content then .low_confidence else .grounded⟩

/-! ## The service -/

def isConversation (conversationId : Uuid) (c : AiConversation) : Bool := c.id = conversationId

/-- `{ messages: { orderBy: { createdAt: 'asc' } } }`; messages with one stamp stay in the order of their insertion. -/
def messagesOf (conversationId : Uuid) (db : AiDatabase) : List AiMessage :=
  (db.aiMessages.filter fun m => m.conversationId = conversationId).insertionSort fun a b => a.createdAt ≤ b.createdAt

/-- A row is stamped so many milliseconds after the last one. -/
def stamped (delay : ℕ) (db : AiDatabase) (message : AiMessage) : AiMessage :=
  { message with createdAt := db.clock + delay }

def insertMessage (delay : ℕ) (message : AiMessage) (db : AiDatabase) : AiDatabase :=
  { db with aiMessages := db.aiMessages ++ [stamped delay db message], clock := db.clock + delay }

def createMessage (delay : ℕ) (message : AiMessage) : AiRequest AiMessage :=
  .stmt (.aiMessage .create) (insertMessage delay message) (fun db => .done (.ok (stamped delay db message)))

def startConversation (companyId userId id : Uuid) (delay : ℕ) : AiRequest AiConversation :=
  .stmt (.aiConversation .create)
    (fun db => { db with
      aiConversations := db.aiConversations ++ [⟨id,companyId,userId,db.clock + delay,db.clock + delay⟩]
      clock := db.clock + delay })
    (fun db => .done (.ok ⟨id,companyId,userId,db.clock + delay,db.clock + delay⟩))

def getConversation (companyId conversationId : Uuid) : AiRequest (AiConversation × List AiMessage) := do
  let found ← .query (.aiConversation .findUnique) fun db =>
    (db.aiConversations.find? (isConversation conversationId)).map fun c => (c,messagesOf conversationId db)
  match found with
  | none => .throw conversationNotFound
  | some (conversation,messages) =>
    if conversation.companyId ≠ companyId then .throw conversationNotFound
    else pure (conversation,messages)

/-- `knowledgeBase.retrieve`. A query without words reads nothing. -/
def retrieveSources (query : String) : AiRequest (List RetrievedSource) :=
  if tokenize query = [] then pure []
  else do
    let rules ← .query (.taxRule .findMany) AiDatabase.taxRules
    let forms ← .query (.formTemplate .findMany) AiDatabase.formTemplates
    pure (retrieve rules forms query)

/-- One call of `sendMessage`, with what it gets from outside. -/
structure SendMessage where
  companyId : Uuid
  conversationId : Uuid
  userContent : String
  reply : ModelReply
  userMessageId : Uuid := 0
  assistantMessageId : Uuid := 0
  storedAfter : ℕ := 0
  answeredAfter : ℕ := 0
  now : DateTime := 0
deriving DecidableEq, Repr

def userMessage (c : SendMessage) : AiMessage where
  id := c.userMessageId
  conversationId := c.conversationId
  sender := .user
  content := c.userContent
  createdAt := 0

def assistantMessage (c : SendMessage) (retrievedSources : List RetrievedSource) (chatResult : ChatResult) : AiMessage where
  id := c.assistantMessageId
  conversationId := c.conversationId
  sender := .assistant
  content := chatResult.content
  retrievedSources := some retrievedSources
  confidenceFlag := some chatResult.confidenceFlag
  createdAt := 0

/-- `{ lastMessageAt: new Date() }`. -/
def touchConversation (c : SendMessage) (db : AiDatabase) : AiDatabase :=
  { db with
    aiConversations := Table.updateMany (isConversation c.conversationId) (fun row => { row with lastMessageAt := c.now })
      db.aiConversations }

def sendMessage (c : SendMessage) : AiRequest AiMessage := do
  let (_,messages) ← getConversation c.companyId c.conversationId
  let _ ← createMessage c.storedAfter (userMessage c)
  let retrievedSources ← retrieveSources c.userContent
  let chatResult ← callModel messages c.userContent retrievedSources c.reply
  let row ← createMessage c.answeredAfter (assistantMessage c retrievedSources chatResult)
  .stmt (.aiConversation .update) (touchConversation c) fun db =>
    if db.aiConversations.any (isConversation c.conversationId) then .done (.ok row) else .done (.error .database)

end PinoyTax.Ai
