import PinoyTax.Foundation.Calendar
import PinoyTax.Foundation.Decimal
import PinoyTax.Schema.Store
import Mathlib.Algebra.Order.BigOperators.Group.List
import Mathlib.Data.List.Sort

/-! # KnowledgeBaseService

The retriever writes each open-ended tax rule and each form template out as one text and
keeps the texts that share most words with the query. Rows with the same score stay in
the order of the tables.
-/
namespace PinoyTax.Ai
open PinoyTax Foundation

/-- A row of `tax_rules`, with the columns that only the retriever reads. -/
structure TaxRuleRow extends TaxRule where
  description : Option String := none
  appliesTo : Option String := none
deriving DecidableEq, Repr

structure FormTemplate where
  id : Uuid
  formCode : String
  title : String
  description : Option String := none
  purpose : Option String := none
  filingFrequency : Option String := none
deriving DecidableEq, Repr

inductive SourceType
  | tax_rule | form_template
deriving DecidableEq, Repr

structure RetrievedSource where
  type : SourceType
  id : Uuid
  label : String
  sourceReference : Option String
  content : String
deriving DecidableEq, Repr

/-! ## Words -/

/-- `toLowerCase`, as far as it yields ASCII letters. Besides the capitals the Kelvin sign and
the dotted capital I do; other letters are none of the retriever's in either case. -/
def lowerChar (c : Char) : List Char :=
  if c.isUpper then [c.toLower]
  else if c = Char.ofNat 0x212A then ['k']
  else if c = Char.ofNat 0x0130 then ['i',Char.ofNat 0x0307]
  else [c]

def toLowerCase (text : String) : String := String.ofList (text.toList.flatMap lowerChar)

/-- `[a-z0-9]`. -/
def isWordChar (c : Char) : Bool := c.isLower || c.isDigit

/-- The runs of letters and digits that are longer than two. -/
def tokenize (text : String) : List String :=
  (((toLowerCase text).toList.splitOnP fun c => !isWordChar c).map String.ofList).filter fun t => 2 < t.length

def scoreOverlap (queryTerms : List String) (content : String) : ℕ :=
  queryTerms.countP fun term => decide (term ∈ tokenize content)

/-! ## Candidates -/

/-- The text of a `Decimal(14, 5)`: no zeros at the end. -/
def rateText (x : ℚ) : String :=
  let units := (roundUnits 5 x).natAbs
  let digits := (toString (units % 100000)).toList
  let decimals := ((List.replicate (5 - digits.length) '0' ++ digits).reverse.dropWhile (· == '0')).reverse
  String.ofList ((if x < 0 then ['-'] else []) ++ (toString (units / 100000)).toList ++
    (if decimals = [] then [] else '.' :: decimals))

/-- `toISOString().slice(0, 10)`. -/
def dateText (t : DateTime) : String := String.ofList ((Calendar.toISOString t).toList.take 10)

def rateLine (r : TaxRateHistory) : String :=
  "rate " ++ rateText r.rateValue ++ " effective " ++ dateText r.effectiveFrom

/-- The text of a rule with the given rates. -/
def ruleContent (rule : TaxRuleRow) (ratesHistory : List TaxRateHistory) : String :=
  " — ".intercalate ([rule.ruleCode,rule.description.getD "",rule.appliesTo.getD ""] ++ ratesHistory.map rateLine)

def ruleCandidate (rule : TaxRuleRow) : RetrievedSource where
  type := .tax_rule
  id := rule.id
  label := rule.ruleCode
  sourceReference := rule.sourceReference
  content := ruleContent rule rule.ratesHistory

def formCandidate (form : FormTemplate) : RetrievedSource where
  type := .form_template
  id := form.id
  label := form.formCode
  sourceReference := none
  content := " — ".intercalate [form.formCode,form.title,form.description.getD "",form.purpose.getD "",
    form.filingFrequency.getD ""]

/-- `{ effectiveTo: null }`. -/
def isOpenEnded (rule : TaxRuleRow) : Bool := rule.effectiveTo.isNone

def candidates (rules : List TaxRuleRow) (forms : List FormTemplate) : List RetrievedSource :=
  (rules.filter isOpenEnded).map ruleCandidate ++ forms.map formCandidate

/-- `retrieve` on what it reads of the two tables. -/
def retrieve (rules : List TaxRuleRow) (forms : List FormTemplate) (query : String) (limit : ℕ := 5) :
    List RetrievedSource :=
  let terms := tokenize query
  if terms = [] then []
  else
    let scored := (candidates rules forms).map fun candidate => (candidate,scoreOverlap terms candidate.content)
    (((scored.filter fun s => 0 < s.2).insertionSort fun a b => b.2 ≤ a.2).take limit).map Prod.fst

example : tokenize "What is the VAT-rate (12%) for 2024?" = ["what","the","vat","rate","for","2024"] := by decide +kernel
example : rateLine ⟨1,3 / 25,none,none,19358 * msPerDay,none⟩ = "rate 0.12 effective 2023-01-01" := by decide +kernel

/-! ## What is retrieved -/

section
variable {rules : List TaxRuleRow} {forms : List FormTemplate} {query : String} {limit : ℕ} {source : RetrievedSource}
  {rule : TaxRuleRow} {rates : List TaxRateHistory}

theorem mem_candidates_of_retrieve (h : source ∈ retrieve rules forms query limit) : source ∈ candidates rules forms := by
  unfold retrieve at h
  dsimp only at h
  split at h
  · simp at h
  · obtain ⟨scored,hscored,rfl⟩ := List.mem_map.mp h
    have hmem := List.mem_of_mem_filter ((List.mem_insertionSort _).mp (List.mem_of_mem_take hscored))
    obtain ⟨candidate,hcandidate,rfl⟩ := List.mem_map.mp hmem
    exact hcandidate

/-- With room for all, every candidate that shares a word with the query is presented. -/
theorem mem_retrieve_of_mem_candidates (h : source ∈ candidates rules forms) {term : String} (hterm : term ∈ tokenize query)
    (hword : term ∈ tokenize source.content) (hlimit : (candidates rules forms).length ≤ limit) :
    source ∈ retrieve rules forms query limit := by
  have hscore : 0 < scoreOverlap (tokenize query) source.content := by
    rw [scoreOverlap,List.countP_pos_iff]
    exact ⟨term,hterm,decide_eq_true hword⟩
  unfold retrieve
  dsimp only
  rw [if_neg (List.ne_nil_of_mem hterm),List.take_of_length_le]
  · refine List.mem_map.mpr ⟨(source,scoreOverlap (tokenize query) source.content),?_,rfl⟩
    rw [List.mem_insertionSort,List.mem_filter]
    refine ⟨List.mem_map_of_mem h,?_⟩
    simp only [decide_eq_true_eq,hscore]
  · rw [List.length_insertionSort]
    exact (List.length_filter_le _ _).trans (by rwa [List.length_map])

theorem tax_rule_mem_candidates_iff (htype : source.type = .tax_rule) :
    source ∈ candidates rules forms ↔ ∃ rule ∈ rules, rule.effectiveTo = none ∧ source = ruleCandidate rule := by
  have hform : source ∉ forms.map formCandidate := by
    intro h
    obtain ⟨form,-,rfl⟩ := List.mem_map.mp h
    cases htype
  simp only [candidates,List.mem_append,hform,or_false,List.mem_map,List.mem_filter,isOpenEnded,Option.isNone_iff_eq_none,
    and_assoc,eq_comm (a := source)]

end

/-! ## The texts of rules -/

section
variable {rule : TaxRuleRow} {rates : List TaxRateHistory}

theorem toList_intercalate_cons {sep x : String} {l : List String} :
    (sep.intercalate (x :: l)).toList = x.toList ++ l.flatMap fun y => (sep ++ y).toList := by
  induction l generalizing x with
  | nil => simp
  | cons y l ih => simp [String.intercalate_cons_cons,String.toList_append,ih]

/-- Each rate adds a line of its own. -/
theorem toList_ruleContent (rule : TaxRuleRow) (rates : List TaxRateHistory) : (ruleContent rule rates).toList =
    (ruleContent rule []).toList ++ rates.flatMap fun r => (" — " ++ rateLine r).toList := by
  simp only [ruleContent,List.cons_append,List.nil_append,toList_intercalate_cons,List.flatMap_cons,List.flatMap_map,
    List.append_assoc,List.flatMap_nil,List.append_nil]

/-- Rates that are left out are missed in the text. -/
theorem filter_eq_self_of_content {p : TaxRateHistory → Bool}
    (h : ruleContent rule (rates.filter p) = ruleContent rule rates) : rates.filter p = rates := by
  have hlist := congrArg String.toList h
  rw [toList_ruleContent,toList_ruleContent rule rates,List.append_cancel_left_eq] at hlist
  have hlength (l : List TaxRateHistory) :
      (l.flatMap fun r => (" — " ++ rateLine r).toList).length = (l.map fun r => (rateLine r).length + 3).sum := by
    rw [List.length_flatMap]
    refine congrArg List.sum (List.map_congr_left fun r _ => ?_)
    rw [String.toList_append,List.length_append,String.length_toList,Nat.add_comm]
    rfl
  have hsum := congrArg List.length hlist
  rw [hlength,hlength] at hsum
  clear h hlist hlength
  induction rates with
  | nil => rfl
  | cons r rates ih =>
    have hle : ((rates.filter p).map fun r => (rateLine r).length + 3).sum ≤ (rates.map fun r => (rateLine r).length + 3).sum :=
      (List.filter_sublist.map _).sum_le_sum fun _ _ => Nat.zero_le _
    cases hp : p r with
    | false =>
      simp only [List.filter_cons,hp,List.map_cons,List.sum_cons,Bool.false_eq_true,if_false] at hsum
      omega
    | true =>
      simp only [List.filter_cons,hp,if_true,List.map_cons,List.sum_cons] at hsum ⊢
      rw [ih (by omega)]

theorem mem_tokenize {text word : String} {a b : List Char} {x y : Char}
    (h : (toLowerCase text).toList = a ++ x :: (word.toList ++ y :: b)) (hx : isWordChar x = false)
    (hy : isWordChar y = false) (hword : ∀ c ∈ word.toList, isWordChar c = true) (hlen : 2 < word.length) :
    word ∈ tokenize text := by
  have hrun : word.toList.splitOnP (fun c => !isWordChar c) = [word.toList] :=
    List.splitOnP_eq_singleton fun c hc => by rw [hword c hc]; rfl
  rw [tokenize,List.mem_filter,h,List.splitOnP_append_cons _ _ (by rw [hx]; rfl),
    List.splitOnP_append_cons _ _ (by rw [hy]; rfl),hrun]
  exact ⟨by simp,decide_eq_true hlen⟩

/-- A rule with a rate is a candidate for the word itself. -/
theorem rate_mem_tokenize (h : rates ≠ []) : "rate" ∈ tokenize (ruleContent rule rates) := by
  obtain ⟨r,rest,rfl⟩ := List.exists_cons_of_ne_nil h
  apply mem_tokenize (x := ' ') (y := ' ') (a := (ruleContent rule []).toList.flatMap lowerChar ++ [' ','—'])
    (b := (rateText r.rateValue ++ " effective " ++ dateText r.effectiveFrom).toList.flatMap lowerChar ++
      (rest.flatMap fun r => (" — " ++ rateLine r).toList).flatMap lowerChar) _ rfl rfl (List.all_eq_true.mp rfl) (by decide)
  rw [toLowerCase,String.toList_ofList,toList_ruleContent,List.flatMap_cons,List.flatMap_append,List.flatMap_append]
  have hline : (" — " ++ rateLine r).toList.flatMap lowerChar = ' ' :: '—' :: ' ' :: 'r' :: 'a' :: 't' :: 'e' :: ' ' ::
      (rateText r.rateValue ++ " effective " ++ dateText r.effectiveFrom).toList.flatMap lowerChar := by
    have hassoc : " — " ++ rateLine r =
        " — rate " ++ (rateText r.rateValue ++ " effective " ++ dateText r.effectiveFrom) := by
      simp only [rateLine,String.append_assoc]
      rfl
    have hfront : " — rate ".toList.flatMap lowerChar = [' ','—',' ','r','a','t','e',' '] := by decide +kernel
    rw [hassoc,String.toList_append,List.flatMap_append,hfront]
    simp only [List.cons_append,List.nil_append]
  rw [hline]
  simp

end
end PinoyTax.Ai
