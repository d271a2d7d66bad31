import PinoyTax.Foundation.Utterances
import PinoyTax.Ai.AssistantService

/-! # What the model is told

Calls for many companies run at the same time, and each of them sends the model a part
of what is stored. Whatever the interleaving, that is a part of one conversation of the
company that asks: what its own calls have said there and what they were answered.
-/
namespace PinoyTax.Ai
open PinoyTax Foundation

inductive AssistantRequest
  | startConversation (companyId userId id : Uuid) (delay : ℕ)
  | getConversation (companyId conversationId : Uuid)
  | sendMessage (c : SendMessage)

def AssistantRequest.program : AssistantRequest → AiRequest Unit
  | startConversation companyId userId id delay => (Ai.startConversation companyId userId id delay).discard
  | getConversation companyId conversationId => (Ai.getConversation companyId conversationId).discard
  | sendMessage c => (Ai.sendMessage c).discard

/-- The row of a message as the model is told of it. -/
def chatMessage (m : AiMessage) : ChatMessage :=
  { role := if m.sender = .user then .user else .assistant, content := m.content }

/-- The call has said it, or was answered it. -/
def Said (c : SendMessage) (m : ChatMessage) : Prop :=
  m = ⟨.user,c.userContent⟩ ∨ m = ⟨.assistant,noGroundingReply⟩ ∨
    ∃ blocks, c.reply = some blocks ∧ m = ⟨.assistant,replyText blocks⟩

/-- The conversation of the call is its company's. -/
def Owned (db : AiDatabase) (c : SendMessage) : Prop :=
  ∃ conversation ∈ db.aiConversations, conversation.id = c.conversationId ∧ conversation.companyId = c.companyId

/-- The key of the conversations. -/
def ConversationKey (db : AiDatabase) : Prop := (db.aiConversations.map AiConversation.id).Nodup

instance (db : AiDatabase) : Decidable (ConversationKey db) := inferInstanceAs (Decidable (List.Nodup _))

section
variable (calls : SendMessage → Prop)

/-- Messages are in the order of their stamps, and each of them is from a call that was let into its conversation. -/
structure Attributed (db : AiDatabase) : Prop where
  key : ConversationKey db
  sorted : db.aiMessages.Pairwise fun a b => a.createdAt ≤ b.createdAt
  stamps : ∀ m ∈ db.aiMessages, m.createdAt ≤ db.clock
  said : ∀ m ∈ db.aiMessages, ∃ c, calls c ∧ Owned db c ∧ m.conversationId = c.conversationId ∧ Said c (chatMessage m)

/-- Conversations stay with their companies, and messages are added at the end. -/
structure Continues (s t : AiDatabase) : Prop where
  conversations : ∀ conversation ∈ s.aiConversations, ∃ conversation' ∈ t.aiConversations,
    conversation'.id = conversation.id ∧ conversation'.companyId = conversation.companyId
  messages : ∃ new, t.aiMessages = s.aiMessages ++ new

theorem Continues.refl (s : AiDatabase) : Continues s s :=
  ⟨fun c hc => ⟨c,hc,rfl,rfl⟩,[],(List.append_nil _).symm⟩

theorem Continues.trans {s t u : AiDatabase} (h : Continues s t) (h' : Continues t u) : Continues s u where
  conversations c hc := by
    obtain ⟨c₁,hc₁,hid₁,hcompany₁⟩ := h.conversations c hc
    obtain ⟨c₂,hc₂,hid₂,hcompany₂⟩ := h'.conversations c₁ hc₁
    exact ⟨c₂,hc₂,hid₂.trans hid₁,hcompany₂.trans hcompany₁⟩
  messages := by
    obtain ⟨new,hnew⟩ := h.messages
    obtain ⟨new',hnew'⟩ := h'.messages
    exact ⟨new ++ new',by rw [hnew',hnew,List.append_assoc]⟩

def chronicle : Discipline AiDatabase where
  Inv := Attributed calls
  Admits := ConversationKey
  Later := Continues
  refl := Continues.refl
  trans := Continues.trans

/-- A part of one conversation, up to some message, and a new message. -/
def Discreet (request : ModelRequest) (db : AiDatabase) : Prop :=
  ∃ c earlier later sources, calls c ∧ Owned db c ∧ messagesOf c.conversationId db = earlier ++ later ∧
    sources ≠ [] ∧ request = modelRequest earlier c.userContent sources

/-- What leaves the system is discreet. -/
def Allowed : AiLabel → AiDatabase → Prop
  | .model request, db => Discreet calls request db
  | _, _ => True

/-- The requests that arrive. -/
def Asks (p : AiRequest Unit) : Prop := ∃ req : AssistantRequest, p = req.program ∧ ∀ c, req = .sendMessage c → calls c

end

/-- The rules, the forms and the clock change on their own. -/
def Elsewhere (s t : AiDatabase) : Prop :=
  t.aiConversations = s.aiConversations ∧ t.aiMessages = s.aiMessages ∧ s.clock ≤ t.clock

section
variable {calls : SendMessage → Prop} {c : SendMessage} {s t : AiDatabase}

theorem Owned.later (h : Owned s c) (hst : Continues s t) : Owned t c := by
  obtain ⟨conversation,hmem,hid,hcompany⟩ := h
  obtain ⟨conversation',hmem',hid',hcompany'⟩ := hst.conversations conversation hmem
  exact ⟨conversation',hmem',hid'.trans hid,hcompany'.trans hcompany⟩

/-- Two calls for one conversation are for one company. -/
theorem Owned.companyId_eq {other : SendMessage} (hkey : ConversationKey s) (h : Owned s c) (h' : Owned s other)
    (hsame : other.conversationId = c.conversationId) : other.companyId = c.companyId := by
  obtain ⟨conversation,hmem,hid,hcompany⟩ := h
  obtain ⟨conversation',hmem',hid',hcompany'⟩ := h'
  have heq : conversation' = conversation :=
    List.inj_on_of_nodup_map hkey hmem' hmem (hid'.trans (hsame.trans hid.symm))
  rw [← hcompany,← hcompany',heq]

theorem Attributed.messagesOf (h : Attributed calls s) (conversationId : Uuid) :
    Ai.messagesOf conversationId s = s.aiMessages.filter fun m => m.conversationId = conversationId :=
  List.Pairwise.insertionSort_eq (h.sorted.filter _)

/-- What was read of a conversation is still its beginning. -/
theorem Attributed.messagesOf_later (hs : Attributed calls s) (ht : Attributed calls t) (hst : Continues s t)
    (conversationId : Uuid) : ∃ new, Ai.messagesOf conversationId t = Ai.messagesOf conversationId s ++ new := by
  obtain ⟨new,hnew⟩ := hst.messages
  rw [hs.messagesOf,ht.messagesOf,hnew,List.filter_append]
  exact ⟨_,rfl⟩

theorem Attributed.of_conversations (h : Attributed calls s) (hkey : ConversationKey t) (hst : Continues s t)
    (hmessages : t.aiMessages = s.aiMessages) (hclock : s.clock ≤ t.clock) : Attributed calls t where
  key := hkey
  sorted := by rw [hmessages]; exact h.sorted
  stamps m hm := (h.stamps m (by rwa [hmessages] at hm)).trans hclock
  said m hm := by
    obtain ⟨c,hc,howned,hsaid⟩ := h.said m (by rwa [hmessages] at hm)
    exact ⟨c,hc,howned.later hst,hsaid⟩

/-! ## The statements -/

theorem continues_insertMessage (delay : ℕ) (message : AiMessage) (s : AiDatabase) :
    Continues s (insertMessage delay message s) := ⟨(Continues.refl s).conversations,_,rfl⟩

/-- A message of a call that was let in. -/
theorem Attributed.insertMessage (h : Attributed calls s) (hc : calls c) (howned : Owned s c) (delay : ℕ)
    {message : AiMessage} (hconversation : message.conversationId = c.conversationId) (hsaid : Said c (chatMessage message)) :
    Attributed calls (Ai.insertMessage delay message s) where
  key := h.key
  sorted := by
    refine List.pairwise_append.mpr ⟨h.sorted,List.pairwise_singleton _ _,fun a ha b hb => ?_⟩
    obtain rfl := List.mem_singleton.mp hb
    exact (h.stamps a ha).trans (Int.le_add_of_nonneg_right (Int.natCast_nonneg delay))
  stamps m hm := by
    rcases List.mem_append.mp hm with hm | hm
    · exact (h.stamps m hm).trans (Int.le_add_of_nonneg_right (Int.natCast_nonneg delay))
    · obtain rfl := List.mem_singleton.mp hm
      exact le_rfl
  said m hm := by
    rcases List.mem_append.mp hm with hm | hm
    · exact h.said m hm
    · obtain rfl := List.mem_singleton.mp hm
      exact ⟨c,hc,howned,hconversation,hsaid⟩

theorem continues_touchConversation (c : SendMessage) (s : AiDatabase) : Continues s (touchConversation c s) := by
  refine ⟨fun conversation hmem => ?_,[],(List.append_nil _).symm⟩
  refine ⟨_,List.mem_map_of_mem hmem,?_⟩
  split <;> exact ⟨rfl,rfl⟩

/-! ## The requests -/

section
variable {β : Type} {R : β → AiDatabase → Prop}

-- whether a query has words is decided by no statement
seal tokenize

/-- Only the company's own conversation is read. -/
theorem speaks_getConversation_bind {companyId conversationId : Uuid}
    {f : AiConversation × List AiMessage → AiRequest β}
    (hf : ∀ conversation t, Attributed calls t → conversation ∈ t.aiConversations → conversation.id = conversationId →
      conversation.companyId = companyId →
      (f (conversation,messagesOf conversationId t)).Speaks (chronicle calls) (Allowed calls) R t) (s : AiDatabase) :
    (getConversation companyId conversationId >>= f).Speaks (chronicle calls) (Allowed calls) R s := by
  rw [getConversation,Prog.bind_assoc]
  refine Prog.speaks_query_bind (fun _ _ _ => trivial) fun t _ hinv => ?_
  cases hfound : t.aiConversations.find? (isConversation conversationId) with
  | none => trivial
  | some conversation =>
    rw [Option.map_some]
    dsimp only
    by_cases hcompany : conversation.companyId = companyId
    · rw [if_neg (not_not.mpr hcompany)]
      obtain ⟨hmem,hid⟩ := Table.find?_key_some hfound
      exact hf conversation t hinv hmem hid hcompany
    · rw [if_pos hcompany]
      trivial

theorem speaks_retrieveSources (query : String) (s : AiDatabase) :
    (retrieveSources query).Speaks (chronicle calls) (Allowed calls) (fun _ t => Continues s t) s := by
  rw [retrieveSources]
  refine Prog.speaks_ite (fun _ => ?_) fun _ => ?_
  · exact fun t ht => ht
  · refine Prog.speaks_query_bind (fun _ _ _ => trivial) fun t hst _ => ?_
    refine Prog.speaks_query_bind (fun _ _ _ => trivial) fun u htu _ => ?_
    exact fun v huv => (hst.trans htu).trans huv

/-- A message of a call that was let in is stored. -/
theorem speaks_createMessage_bind (hc : calls c) (howned : Owned s c) (delay : ℕ) {message : AiMessage}
    (hconversation : message.conversationId = c.conversationId) (hsaid : Said c (chatMessage message))
    {f : AiMessage → AiRequest β}
    (hf : ∀ row t, Continues s t → (f row).Speaks (chronicle calls) (Allowed calls) R t) :
    (createMessage delay message >>= f).Speaks (chronicle calls) (Allowed calls) R s := by
  rw [createMessage,Prog.stmt_bind]
  intro t hst ht
  refine ⟨trivial,fun _ => ⟨?_,continues_insertMessage delay message t,?_⟩⟩
  · exact Attributed.insertMessage ht hc (howned.later hst) delay hconversation hsaid
  · exact hf _ _ (hst.trans (continues_insertMessage delay message t))

/-- The model is told the beginning of the conversation as it was read. -/
theorem speaks_callModel (hc : calls c) (howned : Owned s c) {earlier : List AiMessage}
    (hearlier : ∀ t, Continues s t → Attributed calls t → ∃ later, messagesOf c.conversationId t = earlier ++ later)
    (sources : List RetrievedSource) : (callModel earlier c.userContent sources c.reply).Speaks (chronicle calls)
      (Allowed calls) (fun result t => Continues s t ∧ Said c ⟨.assistant,result.content⟩) s := by
  rw [callModel]
  refine Prog.speaks_ite (fun _ => ?_) fun hsources => ?_
  · exact fun t ht => ⟨ht,.inr (.inl rfl)⟩
  · refine Prog.speaks_query_bind (fun t hst ht => ?_) fun t hst _ => ?_
    · obtain ⟨later,hlater⟩ := hearlier t hst ht
      exact ⟨c,earlier,later,sources,hc,howned.later hst,hlater,hsources,rfl⟩
    · cases hreply : c.reply with
      | none => trivial
      | some blocks => exact fun u htu => ⟨hst.trans htu,.inr (.inr ⟨blocks,hreply,rfl⟩)⟩

theorem speaks_sendMessage (hc : calls c) (s : AiDatabase) :
    (sendMessage c).Speaks (chronicle calls) (Allowed calls) (fun _ _ => True) s := by
  have hretrieve : ∀ s, (retrieveSources c.userContent).Speaks (chronicle calls) (Allowed calls)
      (fun _ t => Continues s t) s := speaks_retrieveSources c.userContent
  rw [sendMessage]
  generalize retrieveSources c.userContent = retrieved at hretrieve ⊢
  refine speaks_getConversation_bind (fun conversation t ht hmem hid hcompany => ?_) s
  have howned : Owned t c := ⟨conversation,hmem,hid,hcompany⟩
  dsimp only
  refine speaks_createMessage_bind hc howned c.storedAfter rfl (.inl rfl) fun _ u htu => ?_
  refine (hretrieve u).bind fun sources v huv => ?_
  have htv := htu.trans huv
  refine (speaks_callModel hc (howned.later htv) (fun w hvw hw => ht.messagesOf_later hw (htv.trans hvw) _) sources).bind
    fun result w hw => ?_
  obtain ⟨hvw,hsaid⟩ := hw
  have hanswered : Said c (chatMessage (assistantMessage c sources result)) := hsaid
  refine speaks_createMessage_bind hc (howned.later (htv.trans hvw)) c.answeredAfter rfl hanswered fun row x hwx => ?_
  intro y hxy hy
  refine ⟨trivial,fun hkey => ⟨?_,continues_touchConversation c y,?_⟩⟩
  · exact hy.of_conversations hkey (continues_touchConversation c y) rfl le_rfl
  · dsimp only
    split
    · exact fun _ _ => trivial
    · trivial

theorem speaks_program (req : AssistantRequest) (hreq : ∀ c, req = .sendMessage c → calls c) (s : AiDatabase) :
    req.program.Speaks (chronicle calls) (Allowed calls) (fun _ _ => True) s := by
  cases req with
  | startConversation companyId userId id delay =>
    intro t _ ht
    have hcontinues : Continues t { t with
        aiConversations := t.aiConversations ++ [⟨id,companyId,userId,t.clock + delay,t.clock + delay⟩]
        clock := t.clock + delay } :=
      ⟨fun c hc => ⟨c,List.mem_append_left _ hc,rfl,rfl⟩,[],(List.append_nil _).symm⟩
    refine ⟨trivial,fun hkey => ⟨?_,hcontinues,fun _ _ => trivial⟩⟩
    exact ht.of_conversations hkey hcontinues rfl (Int.le_add_of_nonneg_right (Int.natCast_nonneg delay))
  | getConversation companyId conversationId =>
    exact speaks_getConversation_bind (fun _ _ _ _ _ _ _ _ => trivial : ∀ conversation t, _) s
  | sendMessage c => exact (speaks_sendMessage (hreq c rfl) s).bind fun _ _ _ _ _ => trivial

end

/-! ## What leaves the system -/

theorem mem_history {earlier : List AiMessage} {m : ChatMessage} (hm : m ∈ history earlier) :
    ∃ row ∈ earlier, m = chatMessage row := by
  obtain ⟨row,hrow,rfl⟩ := List.mem_map.mp hm
  exact ⟨row,List.mem_of_mem_drop hrow,rfl⟩

end

/-- Calls for any number of companies interleave, while rules, forms and the clock change on their own. Whenever the
model is about to be asked, it is for a call whose conversation is its company's, and with sources. It is told the end
of what was stored of this conversation up to some message, and then the new message; all of it was said by, or
answered to, calls of the same company for the same conversation. -/
theorem prompts_stay_in_the_company (calls : SendMessage → Prop) {c : Config AiDatabase AiLabel ApiException Unit}
    (h : Reached (fun s => s.aiMessages = [] ∧ ConversationKey s) ConversationKey (Asks calls) Elsewhere c)
    {request : ModelRequest} {w : AiDatabase → AiDatabase} {k : AiDatabase → AiRequest Unit}
    (hp : .stmt (.model request) w k ∈ c.threads) :
    ∃ call earlier later sources, calls call ∧ Owned c.state call ∧ sources ≠ [] ∧
      messagesOf call.conversationId c.state = earlier ++ later ∧
      request = modelRequest earlier call.userContent sources ∧
      ∀ m ∈ request.messages, ∃ other, calls other ∧ other.companyId = call.companyId ∧
        other.conversationId = call.conversationId ∧ Said other m := by
  have hsaid : Attributed calls c.state ∧ Discreet calls request c.state := by
    refine Reached.said (D := chronicle calls) (L := Allowed calls) (Q := fun _ _ => True) ?_ ?_ ?_ h hp
    · rintro s ⟨hempty,hkey⟩
      have hnone : ∀ m, m ∉ s.aiMessages := by
        intro m
        rw [hempty]
        exact List.not_mem_nil
      exact ⟨hkey,by rw [hempty]; exact .nil,fun m hm => absurd hm (hnone m),fun m hm => absurd hm (hnone m)⟩
    · rintro p ⟨req,rfl,hreq⟩ s _
      exact speaks_program req hreq s
    · rintro s t ⟨hconversations,hmessages,hclock⟩ hs
      have hcontinues : Continues s t :=
        ⟨fun c hc => ⟨c,by rwa [hconversations],rfl,rfl⟩,[],by rw [hmessages,List.append_nil]⟩
      have hkey : ConversationKey t := by
        rw [ConversationKey,hconversations]
        exact hs.key
      exact ⟨hs.of_conversations hkey hcontinues hmessages hclock,hcontinues⟩
  obtain ⟨hattributed,call,earlier,later,sources,hcall,howned,hmessages,hsources,rfl⟩ := hsaid
  refine ⟨call,earlier,later,sources,hcall,howned,hsources,hmessages,rfl,fun m hm => ?_⟩
  rcases List.mem_append.mp hm with hm | hm
  · obtain ⟨row,hrow,rfl⟩ := mem_history hm
    have hmem : row ∈ messagesOf call.conversationId c.state := by
      rw [hmessages]
      exact List.mem_append_left _ hrow
    rw [hattributed.messagesOf,List.mem_filter,decide_eq_true_eq] at hmem
    obtain ⟨other,hother,howned',hconversation,hsaid⟩ := hattributed.said row hmem.1
    have hsame : other.conversationId = call.conversationId := hconversation.symm.trans hmem.2
    exact ⟨other,hother,howned.companyId_eq hattributed.key howned' hsame,hsame,hsaid⟩
  · obtain rfl := List.mem_singleton.mp hm
    exact ⟨call,hcall,rfl,rfl,.inl rfl⟩

/-- A knowledge base with one form, and a conversation each of the companies 7 and 8. -/
def twoConversations : AiDatabase where
  formTemplates := [{ id := 1, formCode := "2550Q", title := "VAT return" }]
  aiConversations := [⟨10,7,5,0,0⟩,⟨20,8,6,0,0⟩]

def greeting (companyId conversationId : Uuid) : SendMessage where
  companyId := companyId
  conversationId := conversationId
  userContent := "Hi"
  reply := none

def vatCall : SendMessage where
  companyId := 7
  conversationId := 10
  userContent := "VAT"
  reply := none

def threeCalls (c : SendMessage) : Prop := c = greeting 7 10 ∨ c = greeting 8 20 ∨ c = vatCall

/-- Both companies have said something when one of them asks. -/
theorem prompts_stay_in_the_company_two : ∃ (s : AiDatabase) (request : ModelRequest),
    s.aiMessages.map AiMessage.conversationId = [10,20,10] ∧ request.messages = [⟨.user,"Hi"⟩,⟨.user,"VAT"⟩] ∧
    ∃ call earlier later sources, threeCalls call ∧ Owned s call ∧ sources ≠ [] ∧
      messagesOf call.conversationId s = earlier ++ later ∧
      request = modelRequest earlier call.userContent sources ∧
      ∀ m ∈ request.messages, ∃ other, threeCalls other ∧ other.companyId = call.companyId ∧
        other.conversationId = call.conversationId ∧ Said other m := by
  have hstart : Reached (fun s => s.aiMessages = [] ∧ ConversationKey s) ConversationKey (Asks threeCalls) Elsewhere
      (⟨twoConversations,[]⟩ : Config AiDatabase AiLabel ApiException Unit) := .start ⟨rfl,by decide +kernel⟩
  have hfirst := hstart.arrive ⟨.sendMessage (greeting 7 10),rfl,fun c hc => .inl (AssistantRequest.sendMessage.inj hc).symm⟩
  have hread := hfirst.execute (i := 0) rfl (by decide +kernel)
  have hstored := hread.execute (i := 0) rfl (by decide +kernel)
  have hother := hstored.arrive ⟨.sendMessage (greeting 8 20),rfl,fun c hc =>
    .inr (.inl (AssistantRequest.sendMessage.inj hc).symm)⟩
  have hread' := hother.execute (i := 0) rfl (by decide +kernel)
  have hstored' := hread'.execute (i := 0) rfl (by decide +kernel)
  have hasked := hstored'.arrive ⟨.sendMessage vatCall,rfl,fun c hc =>
    .inr (.inr (AssistantRequest.sendMessage.inj hc).symm)⟩
  have hfound := hasked.execute (i := 0) rfl (by decide +kernel)
  have hkept := hfound.execute (i := 0) rfl (by decide +kernel)
  have hrules := hkept.execute (i := 0) rfl (by decide +kernel)
  have hforms := hrules.execute (i := 0) rfl (by decide +kernel)
  have hprompt := prompts_stay_in_the_company threeCalls hforms List.mem_cons_self
  exact ⟨_,_,by decide +kernel,by decide +kernel,hprompt⟩

end PinoyTax.Ai
