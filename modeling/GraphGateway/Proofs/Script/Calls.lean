import GraphGateway.Proofs.Script.Literals

/-!
# Reading scripts back

A reader for whole scripts. A step is known by its name, and the name says what
stands between the brackets: a key and a predicate, a child traversal, or values.
Since the reader recovers every traversal from its script, no two traversals
share a script, whatever texts they carry.
-/

namespace GraphGateway

/-! ## Plain traversals -/

def Predicate.values : Predicate → List Value
  | .relation _ v => [v]
  | .within vs => vs
  | .without vs => vs
  | .text .. => []

namespace Step

/-- The values that stand in a step, those of its child traversal aside. -/
def embedded : Step → List Value
  | .vertices ids => ids
  | .edges ids => ids
  | .property _ v => [v]
  | .has _ p => p.values
  | .constant v => [v]
  | _ => []

def child? : Step → Option Traversal
  | .suchThat condition => some condition
  | .modulator _ child => some child
  | _ => none

end Step

/-- Traversals that hold plain values only, at any depth. -/
inductive Traversal.Plain : Traversal → Prop
  | mk {anonymous : Bool} {steps : List Step}
      (values : ∀ s ∈ steps, ∀ v ∈ s.embedded, v.Plain)
      (children : ∀ s ∈ steps, ∀ t, s.child? = some t → Plain t) :
      Plain (.mk anonymous steps)

/-! ## Meanings of calls -/

def strings? : List Value → Option (List String)
  | [] => some []
  | .string s :: rest => (strings? rest).map (s :: ·)
  | _ => none

theorem strings?_map (names : List String) : strings? (names.map .string) = some names := by
  induction names with
  | nil => rfl
  | cons s rest ih => simp [strings?, ih]

def Value.asKey? : Value → Option Key
  | .string s => some (.name s)
  | .token t => some (.token t)
  | _ => none

def Key.toValue : Key → Value
  | .name s => .string s
  | .token t => .token t

namespace Predicate

def callName : Predicate → String
  | .text negated place pattern => "TextP." ++ (Predicate.text negated place pattern).name
  | p => p.name

def callValues : Predicate → List Value
  | .text _ _ pattern => [.string pattern]
  | p => p.values

def ofCall (name : String) (values : List Value) : Option Predicate :=
  match name, values with
  | "within", vs => some (.within vs)
  | "without", vs => some (.without vs)
  | "TextP.startingWith", [.string s] => some (.text false .start s)
  | "TextP.notStartingWith", [.string s] => some (.text true .start s)
  | "TextP.endingWith", [.string s] => some (.text false .finish s)
  | "TextP.notEndingWith", [.string s] => some (.text true .finish s)
  | "TextP.containing", [.string s] => some (.text false .anywhere s)
  | "TextP.notContaining", [.string s] => some (.text true .anywhere s)
  | name, [v] => (Relation.ofName? name).map fun r => .relation r v
  | _, _ => none

theorem ofCall_call (p : Predicate) : ofCall p.callName p.callValues = some p := by
  cases p with
  | relation r v => cases r <;> rfl
  | within vs => rfl
  | without vs => rfl
  | text negated place pattern => cases negated <;> cases place <;> rfl

end Predicate

namespace Step

/-- The values with which a script calls a step that takes values only. -/
def callValues : Step → List Value
  | .vertices ids => ids
  | .edges ids => ids
  | .addVertex name => [.string name]
  | .addEdge name => [.string name]
  | .property key v => [key.toValue, v]
  | .hasLabel labels => labels.map .string
  | .hop _ labels => labels.map .string
  | .incident _ labels => labels.map .string
  | .valueMap tokens keys => (if tokens then [.bool true] else []) ++ keys.map .string
  | .values keys => keys.map .string
  | .range low high => [.int low, .int high]
  | .limit size => [.int size]
  | .project keys => keys.map .string
  | .constant v => [v]
  | _ => []

def ofCall (name : String) (values : List Value) : Option Step :=
  match name, values with
  | "V", ids => some (.vertices ids)
  | "E", ids => some (.edges ids)
  | "addV", [.string s] => some (.addVertex s)
  | "addE", [.string s] => some (.addEdge s)
  | "property", [key, v] => key.asKey?.map fun key => .property key v
  | "hasLabel", vs => (strings? vs).map .hasLabel
  | "out", vs => (strings? vs).map (.hop (.along .outgoing))
  | "in", vs => (strings? vs).map (.hop (.along .incoming))
  | "both", vs => (strings? vs).map (.hop .both)
  | "outE", vs => (strings? vs).map (.incident .outgoing)
  | "inE", vs => (strings? vs).map (.incident .incoming)
  | "outV", [] => some (.endpoint .outgoing)
  | "inV", [] => some (.endpoint .incoming)
  | "valueMap", .bool true :: vs => (strings? vs).map (.valueMap true)
  | "valueMap", vs => (strings? vs).map (.valueMap false)
  | "values", vs => (strings? vs).map .values
  | "id", [] => some .id
  | "label", [] => some .label
  | "fold", [] => some .fold
  | "unfold", [] => some .unfold
  | "count", [] => some .count
  | "range", [.int low, .int high] => some (.range low high)
  | "limit", [.int size] => some (.limit size)
  | "project", vs => (strings? vs).map .project
  | "dedup", [] => some .dedup
  | "constant", [v] => some (.constant v)
  | "drop", [] => some .drop
  | _, _ => none

def ofChild? (name : String) : Option (Traversal → Step) :=
  match name with
  | "where" => some .suchThat
  | "by" => some (.modulator .shape)
  | "from" => some (.modulator .source)
  | "to" => some (.modulator .target)
  | _ => none

def takesValues : Step → Bool
  | .has .. => false
  | .suchThat _ => false
  | .modulator .. => false
  | _ => true

theorem ofCall_call (s : Step) (h : s.takesValues = true) :
    ofCall s.name s.callValues = some s := by
  have hstrings (f : List String → Step) (names : List String) :
      (strings? (names.map .string)).map f = some (f names) := by
    rw [strings?_map]
    rfl
  cases s with
  | vertices ids => rfl
  | edges ids => rfl
  | addVertex name => rfl
  | addEdge name => rfl
  | property key v => cases key <;> rfl
  | hasLabel labels => exact hstrings _ labels
  | has key p => cases h
  | hop direction labels =>
      cases direction with
      | along side => cases side <;> exact hstrings _ labels
      | both => exact hstrings _ labels
  | incident side labels => cases side <;> exact hstrings _ labels
  | endpoint side => cases side <;> rfl
  | suchThat condition => cases h
  | valueMap tokens keys =>
      cases tokens with
      | true => exact hstrings _ keys
      | false =>
          cases keys with
          | nil => rfl
          | cons key others => exact hstrings _ (key :: others)
  | values keys => exact hstrings _ keys
  | id => rfl
  | label => rfl
  | fold => rfl
  | unfold => rfl
  | count => rfl
  | range low high => rfl
  | limit size => rfl
  | project keys => exact hstrings _ keys
  | dedup => rfl
  | constant v => rfl
  | drop => rfl
  | modulator role child => cases h

theorem name_special (s : Step) (h : s.takesValues = true) :
    s.name ≠ "has" ∧ ofChild? s.name = none := by
  cases s with
  | has key p => cases h
  | suchThat condition => cases h
  | modulator role child => cases h
  | hop direction labels =>
      cases direction with
      | along side => cases side <;> exact ⟨by simp [name], rfl⟩
      | both => exact ⟨by simp [name], rfl⟩
  | incident side labels => cases side <;> exact ⟨by simp [name], rfl⟩
  | endpoint side => cases side <;> exact ⟨by simp [name], rfl⟩
  | _ => exact ⟨by simp [name], rfl⟩

theorem not_mem_name (s : Step) : '(' ∉ s.name.toList := by
  cases s with
  | hop direction labels =>
      cases direction with
      | along side => cases side <;> simp [name]
      | both => simp [name]
  | incident side labels => cases side <;> simp [name]
  | endpoint side => cases side <;> simp [name]
  | modulator role child => cases role <;> simp [name, Role.name]
  | _ => simp [name]

end Step

theorem Predicate.not_mem_callName (p : Predicate) : '(' ∉ p.callName.toList := by
  cases p with
  | relation r v => cases r <;> simp [callName, Predicate.name, Relation.name]
  | text negated place pattern =>
      cases negated <;> cases place <;> simp [callName, Predicate.name]
  | _ => simp [callName, Predicate.name]

namespace Script

/-! ## Arguments -/

section Arguments

variable {n : Nat}

theorem reads_literals {items : List Value} (hplain : ∀ v ∈ items, v.Plain)
    (hn : ∀ text ∈ literals items, text.length < n) :
    List.Forall₂ (Reads (readValue n)) (literals items) items := by
  rw [literals_eq_map] at hn ⊢
  refine List.forall₂_map_left_iff.mpr (List.forall₂_same.mpr fun v hv => ?_)
  exact readValue_literal (hplain v hv) (hn _ (List.mem_map_of_mem hv))

theorem reads_strings {names : List String}
    (hn : ∀ text ∈ names.map stringLiteral, text.length < n) :
    List.Forall₂ (Reads (readValue n)) (names.map stringLiteral) (names.map .string) := by
  refine List.forall₂_map_left_iff.mpr (List.forall₂_map_right_iff.mpr ?_)
  refine List.forall₂_same.mpr fun s hs => ?_
  exact readValue_literal (.string s) (hn _ (List.mem_map_of_mem hs))

theorem reads_long (k : Int64) (hn : (longLiteral k).length < n) :
    Reads (readValue n) (longLiteral k) (.int k) := by
  cases n with
  | zero => cases hn
  | succ n => exact readValue_number (readInteger_long k) (longLiteral_head k) n

theorem reads_key (key : Key) (hn : (keyLiteral key).length < n) :
    Reads (readValue n) (keyLiteral key) key.toValue := by
  cases key with
  | token t => exact readValue_literal (.token t) hn
  | name s => exact readValue_literal (.string s) hn

/-- The arguments of a step that takes values are read as its values. -/
theorem reads_stepArguments {s : Step} (hs : s.takesValues = true)
    (hplain : ∀ v ∈ s.embedded, v.Plain) (hn : ∀ text ∈ stepArguments s, text.length < n) :
    List.Forall₂ (Reads (readValue n)) (stepArguments s) s.callValues := by
  cases s with
  | vertices ids => exact reads_literals hplain hn
  | edges ids => exact reads_literals hplain hn
  | addVertex name => exact @reads_strings n [name] hn
  | addEdge name => exact @reads_strings n [name] hn
  | property key v =>
      have hkey := reads_key key (hn _ List.mem_cons_self)
      have hvalue := readValue_literal (hplain v List.mem_cons_self)
        (hn _ (List.mem_cons_of_mem _ List.mem_cons_self))
      exact .cons hkey (.cons hvalue .nil)
  | hasLabel labels => exact reads_strings hn
  | has key p => cases hs
  | hop direction labels => exact reads_strings hn
  | incident side labels => exact reads_strings hn
  | endpoint side => exact .nil
  | suchThat condition => cases hs
  | valueMap tokens keys =>
      cases tokens with
      | true =>
          have htrue := readValue_literal (.bool true) (hn _ List.mem_cons_self)
          exact .cons htrue (reads_strings fun text ht => hn text (List.mem_cons_of_mem _ ht))
      | false => exact reads_strings hn
  | values keys => exact reads_strings hn
  | range low high =>
      have hlow := reads_long low (hn _ List.mem_cons_self)
      have hhigh := reads_long high (hn _ (List.mem_cons_of_mem _ List.mem_cons_self))
      exact .cons hlow (.cons hhigh .nil)
  | limit size => exact .cons (reads_long size (hn _ List.mem_cons_self)) .nil
  | project keys => exact reads_strings hn
  | constant v =>
      have hvalue := readValue_literal (hplain v List.mem_cons_self) (hn _ List.mem_cons_self)
      exact .cons hvalue .nil
  | modulator role child => cases hs
  | _ => exact .nil

end Arguments

/-! ## Readers -/

/-- A name up to its opening bracket, which is taken off as well. -/
def readName : Reader String := fun cs =>
  match cs.dropWhile (· != '(') with
  | [] => none
  | _ :: rest => some (String.ofList (cs.takeWhile (· != '(')), rest)

def readValues (n : Nat) : Reader (List Value) :=
  readMany (readValue n) ')' n

def readPredicate (n : Nat) : Reader Predicate := fun cs => do
  let (name, cs) ← readName cs
  let (values, cs) ← readValues n cs
  let p ← Predicate.ofCall name values
  return (p, cs)

def readHas (n : Nat) : Reader Step := fun cs =>
  match readKey cs with
  | some (key, ',' :: ' ' :: rest) =>
      match readPredicate n rest with
      | some (p, ')' :: rest) => some (.has key p, rest)
      | _ => none
  | _ => none

def readTraversal (calls : Reader (List Step)) : Reader Traversal
  | '_' :: '_' :: cs =>
      match calls cs with
      | some (steps, rest) => some (.mk true steps, rest)
      | none => (Text.strip? ".identity()".toList cs).map fun rest => (.mk true [], rest)
  | 'g' :: cs => (calls cs).map fun (steps, rest) => (.mk false steps, rest)
  | _ => none

def readStep (n : Nat) (calls : Reader (List Step)) (name : String) : Reader Step := fun cs =>
  if name = "has" then readHas n cs
  else
    match Step.ofChild? name with
    | some step =>
        match readTraversal calls cs with
        | some (child, ')' :: rest) => some (step child, rest)
        | _ => none
    | none => do
        let (values, cs) ← readValues n cs
        let step ← Step.ofCall name values
        return (step, cs)

/-- Calls, each after a point, when they nest less deeply than `n`. -/
def readCalls : Nat → Reader (List Step)
  | 0, _ => none
  | n + 1, '.' :: cs => do
      let (name, cs) ← readName cs
      let (step, cs) ← readStep n (readCalls n) name cs
      let (others, cs) ← readCalls n cs
      return (step :: others, cs)
  | _ + 1, cs => some ([], cs)

theorem readName_call {name : String} (h : '(' ∉ name.toList) (rest : List Char) :
    readName (name.toList ++ '(' :: rest) = some (name, rest) := by
  have hname : ∀ c ∈ name.toList, (c != '(') = true := by
    intro c hc
    rw [bne_iff_ne]
    intro heq
    subst heq
    exact h hc
  unfold readName
  rw [List.takeWhile_append_of_pos hname, List.dropWhile_append_of_pos hname]
  simp

theorem readValues_arguments {n : Nat} {texts : List (List Char)} {values : List Value}
    (h : List.Forall₂ (Reads (readValue n)) texts values) (hn : values.length < n)
    (rest : List Char) : readValues n (commaSeparated texts ++ ')' :: rest) = some (values, rest) :=
  readMany_joined (.inl rfl) (readValue_close (.inl rfl) n) h hn rest

theorem length_call (name : String) (texts : List (List Char)) :
    (call name texts).length = name.toList.length + (commaSeparated texts).length + 2 := by
  simp [call]
  omega

/-- The length of a call bounds its arguments and their number. -/
theorem call_bounds {name : String} {texts : List (List Char)} {n : Nat}
    (h : (call name texts).length ≤ n) :
    (∀ text ∈ texts, text.length < n) ∧ texts.length < n := by
  rw [length_call] at h
  have hcount := count_le_commaSeparated texts
  refine ⟨fun text ht => ?_, by omega⟩
  have hle := length_le_commaSeparated ht
  omega

theorem call_append (name : String) (texts : List (List Char)) (rest : List Char) :
    call name texts ++ rest = name.toList ++ '(' :: (commaSeparated texts ++ ')' :: rest) := by
  simp [call]

/-! ## Predicates -/

theorem predicateLiteral_eq_call (p : Predicate) :
    predicateLiteral p = call p.callName (literals p.callValues) := by
  cases p with
  | relation r v => rfl
  | within vs => rfl
  | without vs => rfl
  | text negated place pattern =>
      have hliteral : predicateLiteral (.text negated place pattern) =
          "TextP.".toList ++ call (Predicate.text negated place pattern).name
            [stringLiteral pattern] := rfl
      have harguments : literals [.string pattern] = [stringLiteral pattern] := rfl
      rw [hliteral, Predicate.callValues, harguments]
      simp [Predicate.callName, call]

theorem Predicate.callValues_plain {p : Predicate} (h : ∀ v ∈ p.values, v.Plain) :
    ∀ v ∈ p.callValues, v.Plain := by
  cases p with
  | text negated place pattern =>
      intro v hv
      rw [Predicate.callValues, List.mem_singleton] at hv
      rw [hv]
      exact .string pattern
  | _ => exact h

theorem readPredicate_literal {p : Predicate} (hplain : ∀ v ∈ p.values, v.Plain) {n : Nat}
    (hn : (predicateLiteral p).length ≤ n) (rest : List Char) :
    readPredicate n (predicateLiteral p ++ rest) = some (p, rest) := by
  rw [predicateLiteral_eq_call] at hn ⊢
  obtain ⟨htexts, hcount⟩ := call_bounds hn
  rw [literals_eq_map, List.length_map] at hcount
  have hvalues := readValues_arguments
    (reads_literals (Predicate.callValues_plain hplain) htexts) hcount rest
  unfold readPredicate
  rw [call_append, readName_call p.not_mem_callName]
  simp [hvalues, Predicate.ofCall_call]

/-! ## Steps -/

theorem readStep_values {s : Step} (hs : s.takesValues = true) (hplain : ∀ v ∈ s.embedded, v.Plain)
    {n : Nat} (hn : (call s.name (stepArguments s)).length ≤ n) (calls : Reader (List Step))
    (rest : List Char) :
    readStep n calls s.name (commaSeparated (stepArguments s) ++ ')' :: rest) = some (s, rest) := by
  obtain ⟨htexts, hcount⟩ := call_bounds hn
  have hreads := reads_stepArguments hs hplain htexts
  rw [hreads.length_eq] at hcount
  obtain ⟨hname, hchild⟩ := s.name_special hs
  unfold readStep
  rw [if_neg hname, hchild, readValues_arguments hreads hcount]
  simp [Step.ofCall_call s hs]

theorem readStep_has {key : Key} {p : Predicate} (hplain : ∀ v ∈ p.values, v.Plain) {n : Nat}
    (hn : (predicateLiteral p).length ≤ n) (calls : Reader (List Step)) (rest : List Char) :
    readStep n calls "has"
      (commaSeparated [keyLiteral key, predicateLiteral p] ++ ')' :: rest) =
      some (.has key p, rest) := by
  have hsplit : commaSeparated [keyLiteral key, predicateLiteral p] ++ ')' :: rest =
      keyLiteral key ++ (',' :: ' ' :: (predicateLiteral p ++ ')' :: rest)) := by
    simp [commaSeparated, Text.joined]
  unfold readStep
  rw [if_pos rfl, hsplit, readHas, readKey_keyLiteral]
  simp only [readPredicate_literal hplain hn]

theorem readStep_child {name : String} {step : Traversal → Step}
    (hstep : Step.ofChild? name = some step) {calls : Reader (List Step)} {child : Traversal}
    (hchild : Reads (readTraversal calls) (traversal child) child) (n : Nat) (rest : List Char) :
    readStep n calls name (commaSeparated [traversal child] ++ ')' :: rest) =
      some (step child, rest) := by
  have hname : name ≠ "has" := by
    intro heq
    subst heq
    cases hstep
  have hsingle : commaSeparated [traversal child] = traversal child := rfl
  unfold readStep
  rw [if_neg hname, hstep, hsingle, hchild _ (ends_cons (.inr (.inl rfl)) rest)]
  rfl

/-! ## Traversals -/

theorem calls_cons (s : Step) (others : List Step) :
    calls (s :: others) = '.' :: (call s.name (stepArguments s) ++ calls others) :=
  rfl

/-- The arguments of any step are read, given that its child traversal is. -/
theorem readStep_arguments {s : Step} (hplain : ∀ v ∈ s.embedded, v.Plain) {n : Nat}
    (hn : (call s.name (stepArguments s)).length ≤ n) {calls : Reader (List Step)}
    (hchild : ∀ t, s.child? = some t → (traversal t).length < n →
      Reads (readTraversal calls) (traversal t) t) (rest : List Char) :
    readStep n calls s.name (commaSeparated (stepArguments s) ++ ')' :: rest) = some (s, rest) := by
  obtain ⟨htexts, -⟩ := call_bounds hn
  cases s with
  | has key p =>
      have hlength := htexts _ (List.mem_cons_of_mem _ List.mem_cons_self)
      exact readStep_has hplain (Nat.le_of_lt hlength) calls rest
  | suchThat condition =>
      exact readStep_child rfl (hchild condition rfl (htexts _ List.mem_cons_self)) n rest
  | modulator role child =>
      have hread := hchild child rfl (htexts _ List.mem_cons_self)
      cases role <;> exact readStep_child rfl hread n rest
  | _ => exact readStep_values rfl hplain hn calls rest

theorem readCalls_ends {n : Nat} {rest : List Char} (h : Ends rest) :
    readCalls (n + 1) rest = some ([], rest) := by
  cases rest with
  | nil => rfl
  | cons c others => rcases h c rfl with rfl | rfl | rfl <;> rfl

theorem readCalls_calls {steps : List Step} (hplain : ∀ s ∈ steps, ∀ v ∈ s.embedded, v.Plain)
    (hchildren : ∀ s ∈ steps, ∀ t, s.child? = some t → ∀ {n}, (traversal t).length < n →
      Reads (readTraversal (readCalls n)) (traversal t) t) {n : Nat}
    (hn : (calls steps).length < n) : Reads (readCalls n) (calls steps) steps := by
  induction steps generalizing n with
  | nil =>
      intro rest hrest
      cases n with
      | zero => cases hn
      | succ n => exact readCalls_ends hrest
  | cons s others ih =>
      intro rest hrest
      cases n with
      | zero => cases hn
      | succ n =>
          rw [calls_cons, List.length_cons, List.length_append] at hn
          have hstep : ∀ left, readStep n (readCalls n) s.name
              (commaSeparated (stepArguments s) ++ ')' :: left) = some (s, left) :=
            readStep_arguments (hplain s List.mem_cons_self) (by omega)
              fun t ht => hchildren s List.mem_cons_self t ht
          have hothers := ih (fun q hq => hplain q (List.mem_cons_of_mem s hq))
            (fun q hq => hchildren q (List.mem_cons_of_mem s hq)) (n := n) (by omega) rest hrest
          rw [calls_cons, List.cons_append, List.append_assoc, call_append, readCalls,
            readName_call s.not_mem_name]
          simp [hstep, hothers]

theorem readCalls_identity (n : Nat) (rest : List Char) :
    readCalls (n + 2) (".identity()".toList ++ rest) = none :=
  rfl

/-- The reader takes the script of a traversal off the front of a text. -/
theorem readTraversal_traversal {t : Traversal} (ht : t.Plain) {n : Nat}
    (hn : (traversal t).length < n) : Reads (readTraversal (readCalls n)) (traversal t) t := by
  induction ht generalizing n with
  | @mk anonymous steps hplain _ ih =>
      intro rest hrest
      have hcalls (h : (calls steps).length < n) :
          readCalls n (calls steps ++ rest) = some (steps, rest) :=
        readCalls_calls hplain (fun s hs t ht _ hlength => ih s hs t ht hlength) h rest hrest
      cases anonymous with
      | false =>
          have hlength : (calls steps).length + 1 < n := hn
          show (readCalls n (calls steps ++ rest)).map _ = _
          rw [hcalls (by omega)]
          rfl
      | true =>
          cases steps with
          | nil =>
              -- no step is called `identity`, so that the reader of calls gives up
              obtain ⟨m, rfl⟩ : ∃ m, n = m + 2 := by
                have hlength : 13 < n := hn
                exact ⟨n - 2, by omega⟩
              have hnone := readCalls_identity m rest
              show (match readCalls (m + 2) (".identity()".toList ++ rest) with
                | some (steps, rest) => some (Traversal.mk true steps, rest)
                | none => _) = _
              rw [hnone]
              rfl
          | cons s others =>
              have hlength : (calls (s :: others)).length + 2 < n := hn
              have hread := hcalls (by omega)
              show (match readCalls n (calls (s :: others) ++ rest) with
                | some (steps, rest) => some (Traversal.mk true steps, rest)
                | none => _) = _
              rw [hread]

def readScript? (cs : List Char) : Option Traversal :=
  (readTraversal (readCalls (cs.length + 1)) cs).map Prod.fst

end Script

/-- Reading a script gives the traversal back. -/
theorem Traversal.readScript?_script {t : Traversal} (ht : t.Plain) :
    Script.readScript? t.script.toList = some t := by
  have hread := Script.readTraversal_traversal ht (Nat.lt_succ_self _) [] fun c hc => by cases hc
  rw [List.append_nil] at hread
  rw [script, String.toList_ofList, Script.readScript?, hread]
  rfl

example : Script.readScript? "g.V(1).has('name', within('a, \\')', T.id)).limit(2L)".toList =
    some (.root [.vertices [.int 1],
      .has (.name "name") (.within [.string "a, ')", .token .id]), .limit 2]) := by
  rfl

theorem Traversal.script_injective {t u : Traversal} (ht : t.Plain) (hu : u.Plain)
    (h : t.script = u.script) : t = u := by
  have hread := Traversal.readScript?_script ht
  rw [h, Traversal.readScript?_script hu] at hread
  exact (Option.some.inj hread).symm

theorem Traversal.script_injective_quoted :
    (Traversal.root [.vertices []]).step (.addVertex "'); g.V().drop()") =
      .root [.vertices [], .addVertex "'); g.V().drop()"] := by
  have hplain : (Traversal.root [.vertices [], .addVertex "'); g.V().drop()"]).Plain := by
    refine .mk ?_ ?_ <;> simp [Step.embedded, Step.child?]
  exact Traversal.script_injective hplain hplain rfl

end GraphGateway
