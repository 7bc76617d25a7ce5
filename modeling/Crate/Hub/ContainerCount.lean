import Crate.Hub.KeySearch

/-!
# Counting the containers of a node

The array that the hub finds in an answer is the array of containers, whatever
stands in the strings around and inside it, and the number it reports is the number
of its elements as far as the types of the counters go.
-/

namespace Crate.AggregatorPure

open Crate.Foundation
open JsonText

/-! ## The number of objects -/

theorem seenContent_step {s : Scan} (h : s.seenContent = true) (c : Char) :
    (s.step c).seenContent = true := by
  unfold Scan.step
  repeat' split
  all_goals first | exact h | rfl

theorem seenContent_foldl {s : Scan} (h : s.seenContent = true) (t : Str) :
    (t.foldl Scan.step s).seenContent = true := by
  induction t generalizing s with
  | nil => exact h
  | cons c t ih => exact ih (seenContent_step h c)

theorem step_blank {c : Char} (hc : isBlank c = true) {s : Scan} (hs : s.Outside) :
    s.step c = s := by
  simp only [isBlank, Bool.or_eq_true, decide_eq_true_eq] at hc
  obtain ⟨count, depth, inString, escape, seenContent⟩ := s
  obtain ⟨rfl, rfl⟩ : inString = false ∧ escape = false := hs
  rcases hc with ((rfl | rfl) | rfl) | rfl <;> rfl

theorem step_comma {s : Scan} (hs : s.Outside) : s.step ',' = s := by
  obtain ⟨count, depth, inString, escape, seenContent⟩ := s
  obtain ⟨rfl, rfl⟩ : inString = false ∧ escape = false := hs
  rfl

theorem foldl_blanks (blanks : Blanks) {s : Scan} (hs : s.Outside) :
    blanks.val.foldl Scan.step s = s := by
  obtain ⟨t, ht⟩ := blanks
  induction t with
  | nil => rfl
  | cons c t ih =>
      obtain ⟨hc, ht⟩ := List.forall_mem_cons.mp ht
      rw [List.foldl_cons, step_blank hc hs]
      exact ih ht

/-- At the top an object counts once. -/
theorem foldl_object {v : Json} (h : v.isObject = true) (hn : v.nesting < 2 ^ 31) {s : Scan}
    (hs : s.Outside) (hdepth : s.depth = 0) :
    v.text.foldl Scan.step s = { s with count := s.count + 1, seenContent := true } := by
  obtain ⟨n, inner, hnesting, htext, hinner⟩ := Json.object_text h
  have hopen := step_open hs
  have hone : s.depth + 1 = Int32.ofNat 1 := by
    rw [hdepth]
    rfl
  rw [if_pos hdepth, hone] at hopen
  obtain ⟨inside, hinside⟩ := foldl_nested hinner Nat.one_pos (by omega)
    (s := { s with count := s.count + 1, depth := Int32.ofNat 1, seenContent := true }) hs rfl
  have hseen := seenContent_foldl
    (s := { s with count := s.count + 1, depth := Int32.ofNat 1, seenContent := true }) rfl inner
  rw [hinside] at hseen
  have hinsideTrue : inside = true := hseen
  have hclose := step_close (k := 0) (s := { s with
    count := s.count + 1, depth := Int32.ofNat 1, seenContent := inside }) hs rfl (by norm_num)
  have hzero : Int32.ofNat 0 = s.depth := hdepth.symm
  rw [htext, List.foldl_cons, hopen, List.foldl_append, hinside, List.foldl_cons, List.foldl_nil,
    hclose, hinsideTrue, hzero]

theorem foldl_items : ∀ (items : Items), items.allObjects = true → items.nesting < 2 ^ 31 →
    ∀ {s : Scan}, s.Outside → s.depth = 0 → items.text.foldl Scan.step s =
      { s with count := s.count + UInt32.ofNat items.length, seenContent := true }
  | .one before value behind, h, hn, s, hs, hdepth => by
      rw [Items.text, List.foldl_append, foldl_blanks before hs, List.foldl_append,
        foldl_object h hn hs hdepth]
      exact foldl_blanks behind hs
  | .more before value behind rest, h, hn, s, hs, hdepth => by
      rw [Items.allObjects, Bool.and_eq_true] at h
      rw [Items.nesting] at hn
      have hvalue := foldl_object h.1 (by omega) hs hdepth
      obtain ⟨next, hnext⟩ : ∃ next : Scan,
          { s with count := s.count + 1, seenContent := true } = next := ⟨_, rfl⟩
      have houtside : next.Outside := hnext ▸ hs
      have hrest := foldl_items rest h.2 (by omega) houtside (hnext ▸ hdepth)
      rw [Items.text, List.foldl_append, foldl_blanks before hs, List.foldl_append, hvalue, hnext,
        List.foldl_append, foldl_blanks behind houtside, List.foldl_cons, step_comma houtside,
        hrest, ← hnext]
      have hcount : s.count + 1 + UInt32.ofNat rest.length =
          s.count + UInt32.ofNat (rest.length + 1) := by
        rw [UInt32.ofNat_add, UInt32.add_assoc, UInt32.add_comm 1]
        rfl
      rw [hcount, Items.length]

theorem countTopLevelObjects_array (inner : Str) :
    countTopLevelObjects ('[' :: (inner ++ [']'])) =
      let s := inner.foldl Scan.step {}
      if s.depth ≠ 0 ∨ s.inString then 0 else if !s.seenContent then 0 else s.count := by
  have hfront : ('[' :: (inner ++ [']'])).dropWhile isBlank = '[' :: (inner ++ [']']) := rfl
  have hstrip : ('[' :: (inner ++ [']'])).rdropWhile isBlank = '[' :: (inner ++ [']']) := by
    rw [← List.cons_append, List.rdropWhile_concat_neg _ _ _ (by decide)]
  rw [countTopLevelObjects, hfront, hstrip]
  simp only [List.getLast?_concat, List.dropLast_concat, if_true]

/-- An array whose elements are objects. -/
inductive ObjectArray where
  | empty (blanks : Blanks)
  | filled (items : Items) (objects : items.allObjects = true)

namespace ObjectArray

def json : ObjectArray → Json
  | .empty blanks => .emptyArray blanks
  | .filled items _ => .array items

def text (arr : ObjectArray) : Str := arr.json.text

def nesting (arr : ObjectArray) : Nat := arr.json.nesting

def length : ObjectArray → Nat
  | .empty _ => 0
  | .filled items _ => items.length

theorem text_eq (arr : ObjectArray) :
    ∃ n inner, arr.nesting = n + 1 ∧ arr.text = '[' :: (inner ++ [']']) ∧ Nested n inner := by
  cases arr with
  | empty blanks => exact ⟨0, blanks.val, rfl, rfl, nested_blanks 0 blanks⟩
  | filled items _ => exact ⟨items.nesting, items.text, rfl, rfl, items.nested⟩

/-- The count is the number of elements in a word of 32 bits. -/
theorem count_eq (arr : ObjectArray) (h : arr.nesting < 2 ^ 31) :
    countTopLevelObjects arr.text = UInt32.ofNat arr.length := by
  cases arr with
  | empty blanks =>
      have hinner := foldl_blanks blanks (s := {}) ⟨rfl, rfl⟩
      have htext : text (.empty blanks) = '[' :: (blanks.val ++ [']']) := rfl
      rw [htext, countTopLevelObjects_array, hinner]
      rfl
  | filled items hobjects =>
      have hnesting : items.nesting < 2 ^ 31 := by
        have htotal : items.nesting + 1 < 2 ^ 31 := h
        omega
      have hinner := foldl_items items hobjects hnesting (s := {}) ⟨rfl, rfl⟩ rfl
      have htext : text (.filled items hobjects) = '[' :: (items.text ++ [']']) := rfl
      rw [htext, countTopLevelObjects_array, hinner]
      exact UInt32.zero_add _

end ObjectArray

/-! ## Answers -/

def statusKey : Body := ⟨"status", rfl⟩

def dataKey : Body := ⟨"data", rfl⟩

def versionKey : Body := ⟨"__version", rfl⟩

def jailInformationKey : Body := ⟨"jail-information", rfl⟩

def jailKey : Body := ⟨"jail", rfl⟩

/-- `"jail":[..]` -/
def jailMember (before behindKey beforeValue behind : Blanks) (arr : Json) : Json :=
  .object (.one before jailKey behindKey beforeValue arr behind)

/-- What `jls --libxo json` prints, with the version member it puts in front or without. -/
inductive JailList (arr : Json) : Members → Prop where
  | plain (b₁ b₂ b₃ b₄ b₅ b₆ b₇ b₈ : Blanks) :
      JailList arr (.one b₁ jailInformationKey b₂ b₃ (jailMember b₄ b₅ b₆ b₇ arr) b₈)
  | versioned (version : Body) (a₁ a₂ a₃ a₄ b₁ b₂ b₃ b₄ b₅ b₆ b₇ b₈ : Blanks) :
      JailList arr (.more a₁ versionKey a₂ a₃ (.string version) a₄
        (.one b₁ jailInformationKey b₂ b₃ (jailMember b₄ b₅ b₆ b₇ arr) b₈))

/-- `{"status":..,"data":..}` -/
def envelope (status : Body) (b₁ b₂ b₃ b₄ b₅ b₆ b₇ b₈ : Blanks) (data : Json) : Json :=
  .object (.more b₁ statusKey b₂ b₃ (.string status) b₄ (.one b₅ dataKey b₆ b₇ data b₈))

/-- The bodies of an answer that carry an array. -/
inductive Answer (arr : Json) : Json → Prop where
  | bare : Answer arr arr
  | data (status : Body) (b₁ b₂ b₃ b₄ b₅ b₆ b₇ b₈ : Blanks) :
      Answer arr (envelope status b₁ b₂ b₃ b₄ b₅ b₆ b₇ b₈ arr)
  | jails (status : Body) (b₁ b₂ b₃ b₄ b₅ b₆ b₇ b₈ : Blanks) (members : Members)
      (list : JailList arr members) :
      Answer arr (envelope status b₁ b₂ b₃ b₄ b₅ b₆ b₇ b₈ (.object members))

theorem isKey_data : IsKey dataKey.val := by
  refine ⟨by decide, by decide, by decide, ?_, by decide⟩
  intro c hc
  obtain rfl : 'd' = c := Option.some.inj hc
  decide

theorem isKey_jailInformation : IsKey jailInformationKey.val := by
  refine ⟨by decide, by decide, by decide, ?_, by decide⟩
  intro c hc
  obtain rfl : 'j' = c := Option.some.inj hc
  decide

theorem dropWhile_blanks {c : Char} (hc : isBlank c = false) (before : Blanks) (rest : Str) :
    (before.val ++ c :: rest).dropWhile isBlank = c :: rest := by
  rw [List.dropWhile_append_of_pos before.property, List.dropWhile_cons_of_neg (by simp [hc])]

/-- The value of `data` begins where it should. -/
theorem data_of_envelope (status : Body) (b₁ b₂ b₃ b₄ b₅ b₆ b₇ b₈ : Blanks) (data : Json) {c : Char}
    {rest : Str} (hdata : data.text = c :: rest) (hc : isBlank c = false) (tail : Str) :
    valueAfterKey ((envelope status b₁ b₂ b₃ b₄ b₅ b₆ b₇ b₈ data).text ++ tail) "data" =
      some (data.text ++ (b₈.val ++ '}' :: tail)) := by
  have hafter := afterKey_more isKey_data statusKey (by decide) (by decide) b₁ b₂ b₃ b₄
    b₅ b₆ b₇ b₈ status data ('}' :: tail)
  rw [hdata, List.cons_append] at hafter
  have hvalue := value_of_afterKey hc hafter
  have htext : (envelope status b₁ b₂ b₃ b₄ b₅ b₆ b₇ b₈ data).text ++ tail =
      '{' :: ((Members.more b₁ statusKey b₂ b₃ (.string status) b₄
        (.one b₅ dataKey b₆ b₇ data b₈)).text ++ '}' :: tail) := by
    simp [envelope, Json.text]
  rw [htext, hdata]
  exact hvalue

/-- The value of `jail-information` is the object with the list. -/
theorem jailInformation_of_list {arr : Json} {members : Members} (h : JailList arr members)
    (tail : Str) :
    ∃ b₁ b₂ b₃ b₄ rest, valueAfterKey ((Json.object members).text ++ tail) "jail-information" =
      some ((jailMember b₁ b₂ b₃ b₄ arr).text ++ rest) := by
  have htext : (Json.object members).text ++ tail = '{' :: (members.text ++ '}' :: tail) := by
    simp [Json.text]
  rw [htext]
  cases h with
  | plain b₁ b₂ b₃ b₄ b₅ b₆ b₇ b₈ =>
      refine ⟨b₄, b₅, b₆, b₇, b₈.val ++ '}' :: tail, ?_⟩
      exact value_of_afterKey (c := '{') rfl (afterKey_one jailInformationKey b₁ b₂ b₃ b₈ _ _)
  | versioned version a₁ a₂ a₃ a₄ b₁ b₂ b₃ b₄ b₅ b₆ b₇ b₈ =>
      refine ⟨b₄, b₅, b₆, b₇, b₈.val ++ '}' :: tail, ?_⟩
      exact value_of_afterKey (c := '{') rfl (afterKey_more isKey_jailInformation
        versionKey (by decide) (by decide) a₁ a₂ a₃ a₄ b₁ b₂ b₃ b₈ version _ _)

theorem jail_of_jailMember (b₁ b₂ b₃ b₄ : Blanks) {arr : Json} {rest : Str}
    (harr : arr.text = '[' :: rest) (tail : Str) :
    valueAfterKey ((jailMember b₁ b₂ b₃ b₄ arr).text ++ tail) "jail" =
      some (arr.text ++ (b₄.val ++ '}' :: tail)) := by
  have hafter := afterKey_one jailKey b₁ b₂ b₃ b₄ arr ('}' :: tail)
  rw [harr, List.cons_append] at hafter
  have htext : (jailMember b₁ b₂ b₃ b₄ arr).text ++ tail =
      '{' :: ((Members.one b₁ jailKey b₂ b₃ arr b₄).text ++ '}' :: tail) := by
    simp [jailMember, Json.text]
  rw [htext, harr]
  exact value_of_afterKey rfl hafter

theorem envelope_text (status : Body) (b₁ b₂ b₃ b₄ b₅ b₆ b₇ b₈ : Blanks) (data : Json)
    (tail : Str) :
    ((envelope status b₁ b₂ b₃ b₄ b₅ b₆ b₇ b₈ data).text ++ tail).head? = some '{' := rfl

/-- An answer that is an object. -/
theorem extract_object {text : Str} (h : text.head? = some '{') (before : Blanks) :
    extractContainerArray (before.val ++ text) =
      if ((valueAfterKey text "data").bind List.head?) = some '[' then
        orEmpty (arrayAt (valueAfterKey text "data"))
      else
        match valueAfterKey ((valueAfterKey text "data").getD text) "jail-information" with
        | none => "[]"
        | some ji => orEmpty (arrayAt (valueAfterKey ji "jail")) := by
  obtain ⟨rest, rfl⟩ := List.head?_eq_some_iff.mp h
  rw [extractContainerArray, dropWhile_blanks rfl before rest]
  rfl

/-- The array is found in every answer that carries it. -/
theorem extractContainerArray_answer (arr : ObjectArray) (h : arr.nesting < 2 ^ 31) {body : Json}
    (hbody : Answer arr.json body) (before behind : Blanks) :
    extractContainerArray (before.val ++ (body.text ++ behind.val)) = arr.text := by
  obtain ⟨n, inner, hnesting, htext, hinner⟩ := arr.text_eq
  have hjson : arr.json.text = '[' :: (inner ++ [']']) := htext
  have harray : ∀ rest, orEmpty (arrayAt (some (arr.json.text ++ rest))) = arr.text := by
    intro rest
    have hsplit : arr.json.text ++ rest = '[' :: (inner ++ ']' :: rest) := by simp [hjson]
    rw [hsplit, arrayAt_array hinner (by omega), htext]
    rfl
  have hopened : ∀ rest, (arr.json.text ++ rest).head? = some '[' := by
    intro rest
    rw [hjson]
    rfl
  cases hbody with
  | bare =>
      have hstart : (before.val ++ (arr.json.text ++ behind.val)).dropWhile isBlank =
          arr.json.text ++ behind.val := by
        rw [hjson]
        exact dropWhile_blanks rfl before _
      rw [extractContainerArray, hstart]
      dsimp only
      rw [if_pos (hopened _), harray]
  | data status b₁ b₂ b₃ b₄ b₅ b₆ b₇ b₈ =>
      have hdata := data_of_envelope status b₁ b₂ b₃ b₄ b₅ b₆ b₇ b₈ arr.json hjson rfl behind.val
      have hfirst : ((valueAfterKey ((envelope status b₁ b₂ b₃ b₄ b₅ b₆ b₇ b₈ arr.json).text ++
          behind.val) "data").bind List.head?) = some '[' := by
        rw [hdata]
        exact hopened _
      rw [extract_object (envelope_text _ _ _ _ _ _ _ _ _ _ _), if_pos hfirst, hdata, harray]
  | jails status b₁ b₂ b₃ b₄ b₅ b₆ b₇ b₈ members list =>
      have hdata := data_of_envelope status b₁ b₂ b₃ b₄ b₅ b₆ b₇ b₈ (.object members) rfl rfl
        behind.val
      have hfirst : ((valueAfterKey ((envelope status b₁ b₂ b₃ b₄ b₅ b₆ b₇ b₈
          (.object members)).text ++ behind.val) "data").bind List.head?) ≠ some '[' := by
        rw [hdata]
        exact fun hbracket => absurd (Option.some.inj hbracket) (by decide)
      obtain ⟨d₁, d₂, d₃, d₄, rest, hlist⟩ :=
        jailInformation_of_list list (b₈.val ++ '}' :: behind.val)
      rw [extract_object (envelope_text _ _ _ _ _ _ _ _ _ _ _), if_neg hfirst, hdata,
        Option.getD_some, hlist]
      dsimp only
      rw [jail_of_jailMember d₁ d₂ d₃ d₄ hjson, harray]

/-- The number a hub reports for an answer of a node is the number of objects in it, as long as a
word of 32 bits holds it and the nesting. -/
theorem containers_counted (arr : ObjectArray) (hlength : arr.length < 2 ^ 32)
    (hnesting : arr.nesting < 2 ^ 31) {body : Json} (hbody : Answer arr.json body)
    (before behind : Blanks) :
    extractContainerArray (before.val ++ (body.text ++ behind.val)) = arr.text ∧
      (countTopLevelObjects arr.text).toNat = arr.length := by
  constructor
  · exact extractContainerArray_answer arr hnesting hbody before behind
  · rw [arr.count_eq hnesting, UInt32.toNat_ofNat_of_lt' hlength]

def nameObject (name : Body) : Json :=
  .object (.one noBlanks ⟨"name", rfl⟩ noBlanks noBlanks (.string name) noBlanks)

/-- Two containers with names that look like the marks the hub searches for. -/
def exampleArray : ObjectArray :=
  .filled (.more noBlanks (nameObject ⟨"data", rfl⟩) noBlanks
    (.one noBlanks (nameObject ⟨"]\x7d\\\"jail-information", rfl⟩) noBlanks)) rfl

theorem example_containers_counted :
    extractContainerArray (noBlanks.val ++ ((envelope ⟨"ok", rfl⟩ noBlanks noBlanks noBlanks
        noBlanks noBlanks noBlanks noBlanks noBlanks exampleArray.json).text ++ noBlanks.val)) =
      exampleArray.text ∧ (countTopLevelObjects exampleArray.text).toNat = exampleArray.length :=
  containers_counted exampleArray (by decide) (by decide) (.data _ _ _ _ _ _ _ _ _) noBlanks
    noBlanks

/-! ## The limits of the counters -/

def emptyObjects : Nat → Items
  | 0 => .one noBlanks (.emptyObject noBlanks) noBlanks
  | n + 1 => .more noBlanks (.emptyObject noBlanks) noBlanks (emptyObjects n)

theorem length_emptyObjects (n : Nat) : (emptyObjects n).length = n + 1 := by
  induction n with
  | zero => rfl
  | succ n ih => rw [emptyObjects, Items.length, ih]

theorem allObjects_emptyObjects (n : Nat) : (emptyObjects n).allObjects = true := by
  induction n with
  | zero => rfl
  | succ n ih =>
      rw [emptyObjects, Items.allObjects, ih]
      rfl

theorem nesting_emptyObjects (n : Nat) : (emptyObjects n).nesting = 1 := by
  induction n with
  | zero => rfl
  | succ n ih =>
      rw [emptyObjects, Items.nesting, ih]
      rfl

def crowdedArray (n : Nat) : ObjectArray := .filled (emptyObjects n) (allObjects_emptyObjects n)

/-- Objects in objects, `n + 1` of them. -/
def deepObject : Nat → Json
  | 0 => .emptyObject noBlanks
  | n + 1 => .object (.one noBlanks ⟨"a", rfl⟩ noBlanks noBlanks (deepObject n) noBlanks)

theorem isObject_deepObject (n : Nat) : (deepObject n).isObject = true := by
  cases n <;> rfl

def deepArray (n : Nat) : ObjectArray :=
  .filled (.one noBlanks (deepObject n) noBlanks) (isObject_deepObject n)

/-- A depth past the largest `int` is negative, and closing braces leave it alone. -/
theorem step_close_overflown {s : Scan} (hs : s.Outside) (hdepth : s.depth = Int32.ofNat (2 ^ 31)) :
    s.step '}' = s := by
  obtain ⟨count, depth, inString, escape, seenContent⟩ := s
  obtain ⟨rfl, rfl⟩ : inString = false ∧ escape = false := hs
  obtain rfl : depth = Int32.ofNat (2 ^ 31) := hdepth
  rfl

theorem foldl_deepObject {n k : Nat} (h : k + n + 1 = 2 ^ 31) {s : Scan} (hs : s.Outside)
    (hdepth : s.depth = Int32.ofNat k) :
    (deepObject n).text.foldl Scan.step s = { s with
      count := if s.depth = 0 then s.count + 1 else s.count
      depth := Int32.ofNat (2 ^ 31)
      seenContent := true } := by
  induction n generalizing k s with
  | zero =>
      have hopen := step_open hs
      have hlast : k + 1 = 2 ^ 31 := h
      have hdeep : s.depth + 1 = Int32.ofNat (2 ^ 31) := by rw [hdepth, ofNat_succ, hlast]
      have htext : (deepObject 0).text = ['{', '}'] := rfl
      rw [htext, List.foldl_cons, hopen, List.foldl_cons, List.foldl_nil, hdeep]
      exact step_close_overflown hs rfl
  | succ n ih =>
      have hopen := step_open hs
      obtain ⟨opened, hopened⟩ : ∃ opened, { s with
          count := if s.depth = 0 then s.count + 1 else s.count
          depth := s.depth + 1
          seenContent := true } = opened := ⟨_, rfl⟩
      have houtside : opened.Outside := hopened ▸ hs
      obtain ⟨seen, hcolon⟩ :=
        @step_other ':' (by decide) { opened with seenContent := true } houtside
      have hdeep : opened.depth = Int32.ofNat (k + 1) := by
        rw [← hopened, ← ofNat_succ, ← hdepth]
      have hne : Int32.ofNat (k + 1) ≠ 0 := ofNat_ne_zero (Nat.succ_pos k) (by omega)
      have hinner := @ih (k + 1) (by omega) { opened with seenContent := seen } houtside hdeep
      have hcount : (if opened.depth = 0 then opened.count + 1 else opened.count) = opened.count :=
        if_neg (hdeep ▸ hne)
      have htext : (deepObject (n + 1)).text =
          '{' :: (quoted ⟨"a", rfl⟩ ++ ':' :: ((deepObject n).text ++ ['}'])) := by
        simp [deepObject, Json.text, Members.text, noBlanks]
      rw [htext, List.foldl_cons, hopen, hopened, List.foldl_append, foldl_quoted _ houtside,
        List.foldl_cons, hcolon, List.foldl_append, hinner, List.foldl_cons, List.foldl_nil]
      dsimp only
      rw [hcount, ← hopened]
      exact step_close_overflown hs rfl

theorem count_crowdedArray (n : Nat) :
    countTopLevelObjects (crowdedArray n).text = UInt32.ofNat (n + 1) := by
  have hnesting : (crowdedArray n).nesting = 2 := by
    have htotal : (crowdedArray n).nesting = (emptyObjects n).nesting + 1 := rfl
    rw [htotal, nesting_emptyObjects]
  have hlength : (crowdedArray n).length = n + 1 := length_emptyObjects n
  rw [(crowdedArray n).count_eq (by rw [hnesting]; norm_num), hlength]

theorem count_deepArray {n : Nat} (h : n + 1 = 2 ^ 31) :
    countTopLevelObjects (deepArray n).text = 0 := by
  have htext : (deepArray n).text = '[' :: ((deepObject n).text ++ [']']) := by
    simp [deepArray, ObjectArray.text, ObjectArray.json, Json.text, Items.text, noBlanks]
  have hscan := @foldl_deepObject n 0 (by omega) {} ⟨rfl, rfl⟩ rfl
  rw [htext, countTopLevelObjects_array, hscan]
  rfl

/-- 2^32 objects count as none, and so does one that nests 2^31 deep. -/
theorem counters_overflow :
    (countTopLevelObjects (crowdedArray 4294967295).text).toNat ≠ (crowdedArray 4294967295).length ∧
      (countTopLevelObjects (deepArray 2147483647).text).toNat ≠ (deepArray 2147483647).length := by
  constructor
  · have hlength : (crowdedArray 4294967295).length = 4294967295 + 1 := length_emptyObjects _
    rw [count_crowdedArray, hlength]
    decide
  · have hlength : (deepArray 2147483647).length = 1 := rfl
    rw [count_deepArray (by norm_num), hlength]
    decide

end Crate.AggregatorPure
