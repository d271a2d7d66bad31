import PinoyTax.Foundation.Exchanges
import PinoyTax.Foundation.Runs
import PinoyTax.Ai.AssistantService

/-! # What the model is given of a conversation

A call that is let in stores the message of the user, and the answer unless the model
fails. So the stored messages are the lines of exchanges, answered or not, and the model
is given the last ten of them and the new message.
-/
namespace PinoyTax.Ai
open PinoyTax Foundation Exchanges

inductive AiEvent
  | startConversation (companyId userId id : Uuid) (delay : ℕ)
  | sendMessage (c : SendMessage)
  | content (taxRules : List TaxRuleRow) (formTemplates : List FormTemplate)
deriving DecidableEq, Repr

def next (db : AiDatabase) : AiEvent → AiDatabase
  | .startConversation companyId userId id delay => ((startConversation companyId userId id delay).run db).2
  | .sendMessage c => ((sendMessage c).run db).2
  | .content taxRules formTemplates => { db with taxRules := taxRules, formTemplates := formTemplates }

/-- The request of a call of the model. -/
def modelRequest? : AiLabel → Option ModelRequest
  | .model request => some request
  | _ => none

/-- What a call passes to the model. -/
def modelCalls (c : SendMessage) (db : AiDatabase) : List ModelRequest :=
  ((sendMessage c).labels db).filterMap modelRequest?

/-- The list starts with a message of the user, alternates, and ends with the new one. -/
def WellFormed (userContent : String) (messages : List ChatMessage) : Prop :=
  Alternates .user (messages.map ChatMessage.role) ∧ messages.getLast? = some ⟨.user,userContent⟩

instance (userContent : String) (messages : List ChatMessage) : Decidable (WellFormed userContent messages) :=
  inferInstanceAs (Decidable ((_ ∧ _) ∧ _))

section
variable (db : AiDatabase) (c : SendMessage)

/-- The conversation is there, and it is the company's. -/
def Admitted : Prop :=
  ∃ conversation ∈ db.aiConversations.find? (isConversation c.conversationId), conversation.companyId = c.companyId

instance : Decidable (Admitted db c) :=
  inferInstanceAs (Decidable (∃ conversation ∈ db.aiConversations.find? (isConversation c.conversationId),
    conversation.companyId = c.companyId))

def sourcesFor : List RetrievedSource := retrieve db.taxRules db.formTemplates c.userContent

/-- The model is asked, and the call fails. -/
def FailsInModel : Prop := sourcesFor db c ≠ [] ∧ c.reply = none

instance : Decidable (FailsInModel db c) := inferInstanceAs (Decidable (_ ∧ _))

end

/-- The exchange that an event adds to a conversation: whether it is answered. -/
def exchangeOf (conversationId : Uuid) (db : AiDatabase) : AiEvent → Option Bool
  | .sendMessage c =>
    if c.conversationId = conversationId ∧ Admitted db c then some (decide (¬ FailsInModel db c)) else none
  | _ => none

def exchanges (conversationId : Uuid) : AiDatabase → List AiEvent → List Bool
  | _, [] => []
  | db, e :: es => (exchangeOf conversationId db e).toList ++ exchanges conversationId (next db e) es

/-! ## One call -/

section
variable {db : AiDatabase} {c : SendMessage}

theorem run_getConversation (companyId conversationId : Uuid) (db : AiDatabase) :
    (getConversation companyId conversationId).run db =
      (match db.aiConversations.find? (isConversation conversationId) with
        | some conversation =>
          if conversation.companyId = companyId then .ok (conversation,messagesOf conversationId db)
          else .error conversationNotFound
        | none => .error conversationNotFound, db) := by
  rw [getConversation,Prog.run_bind,Prog.run_query,Prog.resume_ok]
  cases db.aiConversations.find? (isConversation conversationId) with
  | none => rfl
  | some conversation =>
    dsimp only [Option.map_some]
    by_cases hcompany : conversation.companyId = companyId
    · rw [if_neg (not_not.mpr hcompany),if_pos hcompany]
      rfl
    · rw [if_pos hcompany,if_neg hcompany]
      rfl

theorem run_retrieveSources (query : String) (db : AiDatabase) :
    (retrieveSources query).run db = (.ok (retrieve db.taxRules db.formTemplates query),db) := by
  unfold retrieveSources
  by_cases hterms : tokenize query = []
  · rw [if_pos hterms,retrieve]
    dsimp only
    rw [if_pos hterms]
    rfl
  · rw [if_neg hterms]
    rfl

theorem labels_retrieveSources (query : String) (db : AiDatabase) :
    (retrieveSources query).labels db = if tokenize query = [] then [] else [.taxRule .findMany,.formTemplate .findMany] := by
  unfold retrieveSources
  by_cases hterms : tokenize query = []
  · rw [if_pos hterms,if_pos hterms]
    rfl
  · rw [if_neg hterms,if_neg hterms]
    rfl

/-- What comes of the model, or of the lack of sources. -/
def chatResult (retrievedSources : List RetrievedSource) (reply : ModelReply) : Except ApiException ChatResult :=
  if retrievedSources = [] then .ok ⟨noGroundingReply,[],.missing_info⟩
  else match reply with
    | none => .error assistantUnavailable
    | some blocks =>
      .ok ⟨replyText blocks,retrievedSources,if looksUncertain (replyText blocks) then .low_confidence else .grounded⟩

theorem run_callModel (priorMessages : List AiMessage) (userContent : String) (retrievedSources : List RetrievedSource)
    (reply : ModelReply) (db : AiDatabase) : (callModel priorMessages userContent retrievedSources reply).run db =
      (chatResult retrievedSources reply,db) := by
  unfold callModel chatResult
  by_cases hsources : retrievedSources = []
  · rw [if_pos hsources,if_pos hsources]
    rfl
  · rw [if_neg hsources,if_neg hsources]
    cases reply <;> rfl

theorem labels_callModel (priorMessages : List AiMessage) (userContent : String) (retrievedSources : List RetrievedSource)
    (reply : ModelReply) (db : AiDatabase) : (callModel priorMessages userContent retrievedSources reply).labels db =
      if retrievedSources = [] then [] else [.model (modelRequest priorMessages userContent retrievedSources)] := by
  unfold callModel
  by_cases hsources : retrievedSources = []
  · rw [if_pos hsources,if_pos hsources]
    rfl
  · rw [if_neg hsources,if_neg hsources]
    cases reply <;> rfl

theorem chatResult_eq_error_iff {e : ApiException} :
    chatResult (sourcesFor db c) c.reply = .error e ↔ FailsInModel db c ∧ e = assistantUnavailable := by
  unfold chatResult FailsInModel
  by_cases hsources : sourcesFor db c = []
  · simp [hsources]
  · cases c.reply with
    | none => simpa [hsources] using eq_comm
    | some blocks => simp [hsources]

theorem run_getConversation_of_admitted (h : Admitted db c) : ∃ conversation,
    (getConversation c.companyId c.conversationId).run db =
      (.ok (conversation,messagesOf c.conversationId db),db) := by
  obtain ⟨conversation,hfound,hcompany⟩ := h
  refine ⟨conversation,?_⟩
  rw [run_getConversation,Option.mem_def.mp hfound]
  simp only [hcompany,if_true]

theorem run_getConversation_of_not_admitted (h : ¬ Admitted db c) :
    (getConversation c.companyId c.conversationId).run db = (.error conversationNotFound,db) := by
  rw [run_getConversation]
  cases hfound : db.aiConversations.find? (isConversation c.conversationId) with
  | none => rfl
  | some conversation =>
    have hcompany : conversation.companyId ≠ c.companyId := fun hcompany => h ⟨conversation,hfound,hcompany⟩
    simp only [hcompany,if_false]

end

/-! ## The rows that an event adds -/

/-- Rows were appended, stamped in their order between the clock before and the clock after. -/
structure Appends (new : List AiMessage) (db db' : AiDatabase) : Prop where
  rows : db'.aiMessages = db.aiMessages ++ new
  sorted : new.Pairwise fun a b => a.createdAt ≤ b.createdAt
  stamps : ∀ m ∈ new, db.clock ≤ m.createdAt ∧ m.createdAt ≤ db'.clock
  clock : db.clock ≤ db'.clock

section
variable {db db' db'' : AiDatabase} {c : SendMessage} {new new' : List AiMessage}

theorem appends_nil (hrows : db'.aiMessages = db.aiMessages) (hclock : db.clock ≤ db'.clock) : Appends [] db db' :=
  ⟨by rw [hrows,List.append_nil],.nil,by simp,hclock⟩

theorem appends_insertMessage (delay : ℕ) (message : AiMessage) (db : AiDatabase) :
    Appends [stamped delay db message] db (insertMessage delay message db) := by
  have hclock : db.clock ≤ db.clock + delay := Int.le_add_of_nonneg_right (Int.natCast_nonneg delay)
  exact ⟨rfl,List.pairwise_singleton _ _,by simp [stamped,insertMessage],hclock⟩

theorem Appends.trans (h : Appends new db db') (h' : Appends new' db' db'') : Appends (new ++ new') db db'' := by
  refine ⟨by rw [h'.rows,h.rows,List.append_assoc],?_,?_,h.clock.trans h'.clock⟩
  · rw [List.pairwise_append]
    exact ⟨h.sorted,h'.sorted,fun a ha b hb => (h.stamps a ha).2.trans (h'.stamps b hb).1⟩
  · intro m hm
    rcases List.mem_append.mp hm with hm | hm
    · exact ⟨(h.stamps m hm).1,(h.stamps m hm).2.trans h'.clock⟩
    · exact ⟨h.clock.trans (h'.stamps m hm).1,(h'.stamps m hm).2⟩

theorem next_sendMessage_of_not_admitted (h : ¬ Admitted db c) : next db (.sendMessage c) = db := by
  rw [next,sendMessage,Prog.run_bind,run_getConversation_of_not_admitted h,Prog.resume_error]

/-- A call that is let in stores the message of the user, and the answer unless the model fails. -/
theorem next_sendMessage_of_admitted (h : Admitted db c) : next db (.sendMessage c) =
    match chatResult (sourcesFor db c) c.reply with
    | .error _ => insertMessage c.storedAfter (userMessage c) db
    | .ok result => touchConversation c (insertMessage c.answeredAfter (assistantMessage c (sourcesFor db c) result)
        (insertMessage c.storedAfter (userMessage c) db)) := by
  obtain ⟨conversation,hget⟩ := run_getConversation_of_admitted h
  rw [next,sendMessage,Prog.run_bind,hget,Prog.resume_ok]
  dsimp only
  rw [Prog.run_bind,createMessage,Prog.run_stmt,Prog.run_done,Prog.resume_ok,Prog.run_bind,run_retrieveSources,
    Prog.resume_ok,Prog.run_bind,run_callModel]
  change (Prog.resume _ (chatResult (sourcesFor db c) c.reply,_)).2 = _
  cases chatResult (sourcesFor db c) c.reply with
  | error e => rfl
  | ok result =>
    rw [Prog.resume_ok,Prog.run_bind,createMessage,Prog.run_stmt,Prog.run_done,Prog.resume_ok,Prog.run_stmt]
    split <;> rfl

theorem sendMessage_appends (h : Admitted db c) : ∃ new, Appends new db (next db (.sendMessage c)) ∧
    (∀ m ∈ new, m.conversationId = c.conversationId) ∧
    new.map AiMessage.sender = lines .user .assistant [decide (¬ FailsInModel db c)] := by
  have hstored := appends_insertMessage c.storedAfter (userMessage c) db
  rw [next_sendMessage_of_admitted h]
  cases hresult : chatResult (sourcesFor db c) c.reply with
  | error e =>
    have hfails : FailsInModel db c := (chatResult_eq_error_iff.mp hresult).1
    exact ⟨_,hstored,by simp [stamped,userMessage],by simp [lines,hfails,stamped,userMessage]⟩
  | ok result =>
    have hfails : ¬ FailsInModel db c := by
      intro hfails
      rw [chatResult_eq_error_iff.mpr ⟨hfails,rfl⟩] at hresult
      cases hresult
    have hanswered := hstored.trans (appends_insertMessage c.answeredAfter
      (assistantMessage c (sourcesFor db c) result) (insertMessage c.storedAfter (userMessage c) db))
    refine ⟨_,hanswered.trans (appends_nil rfl le_rfl),?_,?_⟩
    · simp [stamped,userMessage,assistantMessage]
    · simp [lines,hfails,stamped,userMessage,assistantMessage]

/-- What an event adds to a conversation are the lines of its exchange. -/
theorem next_appends (conversationId : Uuid) (db : AiDatabase) (e : AiEvent) : ∃ new, Appends new db (next db e) ∧
    (new.filter fun m => m.conversationId = conversationId).map AiMessage.sender =
      lines .user .assistant (exchangeOf conversationId db e).toList := by
  cases e with
  | startConversation companyId userId id delay =>
    exact ⟨[],appends_nil rfl (Int.le_add_of_nonneg_right (Int.natCast_nonneg delay)),rfl⟩
  | content taxRules formTemplates => exact ⟨[],appends_nil rfl le_rfl,rfl⟩
  | sendMessage c =>
    by_cases hadmitted : Admitted db c
    · obtain ⟨new,hnew,howner,hsenders⟩ := sendMessage_appends hadmitted
      refine ⟨new,hnew,?_⟩
      by_cases hconversation : c.conversationId = conversationId
      · rw [exchangeOf,if_pos ⟨hconversation,hadmitted⟩,List.filter_eq_self.mpr]
        · exact hsenders
        · exact fun m hm => decide_eq_true ((howner m hm).trans hconversation)
      · rw [exchangeOf,if_neg fun h => hconversation h.1,List.filter_eq_nil_iff.mpr]
        · rfl
        · exact fun m hm hm' => hconversation ((howner m hm).symm.trans (of_decide_eq_true hm'))
    · refine ⟨[],appends_nil (by rw [next_sendMessage_of_not_admitted hadmitted])
        (by rw [next_sendMessage_of_not_admitted hadmitted]),?_⟩
      rw [exchangeOf,if_neg fun h => hadmitted h.2]
      rfl

end

/-! ## A run -/

section
variable {conversationId : Uuid} {db db' : AiDatabase} {new : List AiMessage}

/-- The rows of the conversation are the lines of its exchanges, in the order of their stamps. -/
structure Tells (conversationId : Uuid) (exchanges : List Bool) (db : AiDatabase) : Prop where
  senders : (db.aiMessages.filter fun m => m.conversationId = conversationId).map AiMessage.sender =
    lines .user .assistant exchanges
  sorted : (db.aiMessages.filter fun m => m.conversationId = conversationId).Pairwise fun a b => a.createdAt ≤ b.createdAt
  past : ∀ m ∈ db.aiMessages.filter (fun m => m.conversationId = conversationId), m.createdAt ≤ db.clock

theorem tells_nil (h : db.aiMessages.filter (fun m => m.conversationId = conversationId) = []) :
    Tells conversationId [] db := ⟨by rw [h]; rfl,by rw [h]; exact .nil,by rw [h]; simp⟩

theorem Tells.next {told : List Bool} (h : Tells conversationId told db) (e : AiEvent) :
    Tells conversationId (told ++ (exchangeOf conversationId db e).toList) (Ai.next db e) := by
  obtain ⟨new,hnew,hsenders⟩ := next_appends conversationId db e
  refine ⟨?_,?_,?_⟩
  · rw [hnew.rows,List.filter_append,List.map_append,h.senders,hsenders,lines_append]
  · rw [hnew.rows,List.filter_append,List.pairwise_append]
    refine ⟨h.sorted,hnew.sorted.filter _,fun a ha b hb => ?_⟩
    exact (h.past a ha).trans (hnew.stamps b (List.mem_of_mem_filter hb)).1
  · intro m hm
    rw [hnew.rows,List.filter_append,List.mem_append] at hm
    rcases hm with hm | hm
    · exact (h.past m hm).trans hnew.clock
    · exact (hnew.stamps m (List.mem_of_mem_filter hm)).2

theorem Tells.run {told : List Bool} (h : Tells conversationId told db) (events : List AiEvent) :
    Tells conversationId (told ++ exchanges conversationId db events) (events.foldl Ai.next db) := by
  induction events generalizing db told with
  | nil => simpa [exchanges] using h
  | cons e events ih =>
    have hrest := ih (h.next e)
    rwa [List.append_assoc] at hrest

theorem Tells.messagesOf {told : List Bool} (h : Tells conversationId told db) :
    (Ai.messagesOf conversationId db).map AiMessage.sender = lines .user .assistant told := by
  rw [Ai.messagesOf,List.Pairwise.insertionSort_eq h.sorted,h.senders]

end

/-! ## What is passed to the model -/

section
variable {db : AiDatabase} {c : SendMessage}

theorem labels_getConversation (companyId conversationId : Uuid) (db : AiDatabase) :
    (getConversation companyId conversationId).labels db = [.aiConversation .findUnique] := by
  rw [getConversation,Prog.labels_bind (Prog.run_query _ _ db),Prog.labels_query]
  cases (db.aiConversations.find? (isConversation conversationId)).map fun c => (c,messagesOf conversationId db) with
  | none => rfl
  | some found =>
    dsimp only
    split <;> rfl

/-- The model is asked where there are sources, and what follows its answer asks no more. -/
theorem modelRequests_callModel {row : ChatResult → AiRequest AiMessage}
    (hrow : ∀ result db, ((row result).labels db).filterMap modelRequest? = []) (priorMessages : List AiMessage)
    (userContent : String) (retrievedSources : List RetrievedSource) (reply : ModelReply) (db : AiDatabase) :
    ((callModel priorMessages userContent retrievedSources reply >>= row).labels db).filterMap modelRequest? =
      if retrievedSources = [] then [] else [modelRequest priorMessages userContent retrievedSources] := by
  have hrun := run_callModel priorMessages userContent retrievedSources reply db
  cases hresult : chatResult retrievedSources reply with
  | error e =>
    rw [hresult] at hrun
    rw [Prog.labels_bind_of_error hrun,labels_callModel]
    split <;> rfl
  | ok result =>
    rw [hresult] at hrun
    rw [Prog.labels_bind hrun,labels_callModel,List.filterMap_append,hrow,List.append_nil]
    split <;> rfl

/-- A call passes one list to the model when it is let in and finds sources, and none otherwise. -/
theorem modelCalls_eq (c : SendMessage) (db : AiDatabase) : modelCalls c db =
    if Admitted db c ∧ sourcesFor db c ≠ [] then
      [modelRequest (messagesOf c.conversationId db) c.userContent (sourcesFor db c)] else [] := by
  unfold modelCalls sendMessage
  by_cases hadmitted : Admitted db c
  · obtain ⟨conversation,hget⟩ := run_getConversation_of_admitted hadmitted
    have hreads (p : Prop) [Decidable p] : (if p then ([] : List AiLabel) else
        [.taxRule .findMany,.formTemplate .findMany]).filterMap modelRequest? = [] := by split <;> rfl
    have hsources : retrieve (insertMessage c.storedAfter (userMessage c) db).taxRules
        (insertMessage c.storedAfter (userMessage c) db).formTemplates c.userContent = sourcesFor db c := rfl
    rw [Prog.labels_bind hget,labels_getConversation]
    dsimp only
    rw [createMessage,Prog.stmt_bind,Prog.labels_stmt,Prog.done_ok_bind,Prog.labels_bind (run_retrieveSources _ _),
      labels_retrieveSources,List.filterMap_append,List.filterMap_cons_none rfl,List.filterMap_cons_none rfl,
      List.filterMap_append,hreads,hsources,modelRequests_callModel,List.filterMap_nil,List.nil_append,List.nil_append]
    · simp only [hadmitted,true_and,ne_eq,ite_not]
    · intro result db'
      rw [createMessage,Prog.stmt_bind,Prog.labels_stmt,Prog.done_ok_bind,Prog.labels_stmt]
      split <;> rfl
  · rw [Prog.labels_bind_of_error (run_getConversation_of_not_admitted hadmitted),labels_getConversation,
      if_neg fun h => hadmitted h.1]
    rfl

theorem map_role_history (priorMessages : List AiMessage) :
    (history priorMessages).map ChatMessage.role = lastOf 10 (priorMessages.map AiMessage.sender) := by
  rw [history,lastOf,List.map_map,List.length_map,← List.map_drop]
  apply List.map_congr_left
  intro m _
  rw [Function.comp_apply]
  cases m.sender <;> rfl

end

/-- The list that a call passes to the model starts with a message of the user, alternates, and ends with the new one
exactly when none of the last five exchanges before it lacks its answer. -/
theorem model_list_wellFormed_iff (c : SendMessage) (db : AiDatabase)
    (hnew : db.aiMessages.filter (fun m => m.conversationId = c.conversationId) = []) (before : List AiEvent) :
    ∀ request ∈ modelCalls c (before.foldl next db), WellFormed c.userContent request.messages ↔
      ∀ answered ∈ lastOf 5 (exchanges c.conversationId db before), answered = true := by
  intro request hrequest
  rw [modelCalls_eq] at hrequest
  split at hrequest
  · obtain rfl := List.mem_singleton.mp hrequest
    have htold := ((tells_nil hnew).run before).messagesOf
    have hsenders : MessageSender.user ≠ .assistant := by decide
    have hroles : (modelRequest (messagesOf c.conversationId (before.foldl next db)) c.userContent
        (sourcesFor (before.foldl next db) c)).messages.map ChatMessage.role =
          lastOf (2 * 5) (lines .user .assistant (exchanges c.conversationId db before)) ++ [.user] := by
      rw [modelRequest,List.map_append,map_role_history,htold]
      rfl
    rw [WellFormed,hroles,alternates_window_iff hsenders]
    exact and_iff_left List.getLast?_concat
  · cases hrequest

/-- A knowledge base with one rule. -/
def vatKnowledge : AiDatabase where
  taxRules := [{ id := 1, ruleCode := "VAT_RATE", effectiveFrom := 0, description := some "Value-added tax" }]

/-- A question of the conversation 10 of the company 7, and what the model makes of it. -/
def vatQuestion (reply : ModelReply) : SendMessage where
  companyId := 7
  conversationId := 10
  userContent := "What is the VAT rate?"
  reply := reply
  answeredAfter := 900

/-- When the first question has its answer, the second call gets a well-formed list. -/
theorem model_list_wellFormed_iff_answered :
    ∃ request ∈ modelCalls (vatQuestion none)
      ([.startConversation 7 5 10 0,.sendMessage (vatQuestion (some [.text "12%"]))].foldl next vatKnowledge),
      WellFormed "What is the VAT rate?" request.messages := by
  obtain ⟨request,hrequest⟩ := List.exists_mem_of_length_pos (l := modelCalls (vatQuestion none)
    ([.startConversation 7 5 10 0,.sendMessage (vatQuestion (some [.text "12%"]))].foldl next vatKnowledge))
    (by decide +kernel)
  exact ⟨request,hrequest,(model_list_wellFormed_iff (vatQuestion none) vatKnowledge rfl _ request hrequest).mpr
    (by decide +kernel)⟩

/-- After a call of the model that failed the same question is asked again: two messages of the user in a row. -/
theorem retried_question_not_wellFormed :
    vatKnowledge.aiMessages = [] ∧
      ∃ request ∈ modelCalls (vatQuestion (some [.text "12%"]))
        ([.startConversation 7 5 10 0,.sendMessage (vatQuestion none)].foldl next vatKnowledge),
        ¬ WellFormed "What is the VAT rate?" request.messages :=
  ⟨rfl,by decide +kernel⟩

end PinoyTax.Ai
