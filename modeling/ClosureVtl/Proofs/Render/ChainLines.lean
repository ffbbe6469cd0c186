/-
Module: ClosureVtl.Proofs.Render.ChainLines
Purpose: The lines of a chain of list operations, one by one.
Main exports:
  Walker.Silent, Walker.ChainOver, Walker.Consumes, handOver, chainLines,
  Program.emits_renderStages, Program.emits_listOperation, emits_chain
-/
import ClosureVtl.Proofs.Render.Emission
import ClosureVtl.Proofs.Render.LoopCount

namespace ClosureVtl

/-!
A chain of `map` operations and the operation that consumes it share one loop.  The variables
of the items are chosen from the consumer inwards, the header is written at the bottom of that
recursion, and the bodies are rendered on the way back.  Here the lines are those that a reader
of the source would write down from left to right: the header over the source, then for each
stage its value in a temporary and the temporary in the variable of the next stage, then what
the consumer does with the last value.
-/

/-! ### Expressions without lines -/

/-- Whether an expression is rendered to a text without a line, with so many temporaries, and
makes these calls the other ones. -/
def Walker.Silent (w : Walker) (expr : NodeId) (text : String) (temps : Nat)
    (calls later : Array IntegrationId) : Prop :=
  ∀ out : Output, out.integrations = calls → (w.expression expr).Emits out text [] temps later

/-- Whether a parameter is a plain name with an address. -/
def Arena.BindsPlainly (a : Arena) (dialect : Dialect) (parameter : NodeId) (address : String) :
    Prop :=
  ∃ name text, a.get? parameter = some (.parameter name none) ∧
    a.get? name = some (.identifier text) ∧ a.addressIn dialect name = .ok address

/-! ### Chains -/

/-- What a stage of a chain comes down to: the variable of its item and the text of its
value. -/
structure ChainStage where
  item : String
  value : String
deriving DecidableEq, Repr

/-- Whether an expression is a chain of `map` operations over a source that is none.  The
source is rendered without lines to a reference, each callback has a plain parameter and
nothing else, and its body is rendered without lines and temporaries.  The stages are listed
in source order. -/
inductive Walker.ChainOver (w : Walker) (source : NodeId) (list : String) (temps : Nat)
    (calls : Array IntegrationId) : NodeId → List ChainStage → Array IntegrationId → Prop where
  | source {later : Array IntegrationId} (first : w.arena.mapStage? source = none)
      (silent : w.Silent source list temps calls later)
      (reference : Text.isReference list = true) :
      ChainOver w source list temps calls source [] later
  | stage {id parameter : NodeId} {c : ListCall} {stages : List ChainStage}
      {item value : String} {middle later : Array IntegrationId}
      (call : w.arena.mapStage? id = some c)
      (inner : ChainOver w source list temps calls c.receiver stages middle)
      (single : c.parameters = [parameter])
      (plain : w.arena.BindsPlainly w.dialect parameter item)
      (silent : w.Silent c.body value 0 middle later) :
      ChainOver w source list temps calls id (stages ++ [⟨item, value⟩]) later

/-- The variable of the first stage, or of the consumer if there is none. -/
def firstItem (stages : List ChainStage) (item : String) : String :=
  match stages with
  | [] => item
  | stage :: _ => stage.item

/-- The lines of the stages in source order, with temporaries behind the given number: the
value of a stage is stored in a temporary, and this in the variable of the next stage or, at
the end, of the consumer. -/
def handOver (temps : Nat) : List ChainStage → String → List String
  | [], _ => []
  | stage :: later, item =>
    setLine (Render.tempName (temps + 1)) stage.value ::
      setLine (firstItem later item) (Render.tempName (temps + 1)) ::
        handOver (temps + 1) later item

/-- To the stages before it, the last stage is what the consumer was. -/
theorem firstItem_concat (stages : List ChainStage) (last : ChainStage) (item : String) :
    firstItem (stages ++ [last]) item = firstItem stages last.item := by
  cases stages <;> rfl

/-- The last stage hands its value to the consumer. -/
theorem handOver_concat (temps : Nat) (stages : List ChainStage) (last : ChainStage)
    (item : String) :
    handOver temps (stages ++ [last]) item =
      handOver temps stages last.item ++
        [setLine (Render.tempName (temps + stages.length + 1)) last.value,
          setLine item (Render.tempName (temps + stages.length + 1))] := by
  induction stages generalizing temps with
  | nil => rfl
  | cons stage later ih =>
    have hlength : temps + (stage :: later).length = temps + 1 + later.length := by
      rw [List.length_cons]
      omega
    rw [List.cons_append, handOver, ih, firstItem_concat, hlength, handOver]
    rfl

/-! ### Consumers -/

/-- What consumes a chain; of a reduction also the variable of the accumulator and the text of
the initial value, if there is one. -/
inductive ChainEnd where
  | map
  | forEach
  | filter
  | reduce (accumulator : String) (initial : Option String)
deriving DecidableEq, Repr

namespace ChainEnd

/-- The consumers that take the items alone. -/
def ofOperation? : Walker.ListOperation → Option ChainEnd
  | .map => some map
  | .forEach => some forEach
  | .filter => some filter
  | .reduce => none

/-- The number of temporaries for the result. -/
def temps : ChainEnd → Nat
  | forEach => 0
  | map | filter | reduce .. => 1

/-- What the result is before the loop. -/
def opening (result : String) : ChainEnd → List String
  | map | filter => [setLine result "[]"]
  | reduce _ (some initial) => [setLine result initial]
  | forEach | reduce _ none => []

/-- The guard in front of the loop of a reduction that takes the first item as initial
value. -/
def guard (list : String) : ChainEnd → List String
  | reduce _ none =>
    [ifLine s!"{list}.isEmpty()",
      "$util.error(\"Reduce of empty array with no initial value\", \"EmptyReduceNoInitial\")",
      "#end"]
  | _ => []

/-- One round of a reduction. -/
def round (result accumulator temp value : String) : List String :=
  [setLine accumulator result, setLine temp value, setLine result temp]

/-- What is done with the last item of a chain, in the loop. -/
def consume (result item temp value : String) : ChainEnd → List String
  | map => [setLine temp value, discardLine s!"{result}.add({temp})"]
  | forEach => [setLine temp value]
  | filter =>
    [setLine temp value, ifLine temp, discardLine s!"{result}.add({item})", "#end"]
  | reduce accumulator (some _) => round result accumulator temp value
  | reduce accumulator none =>
    ["#if($foreach.index == 0)", setLine result item, "#else"] ++
      round result accumulator temp value ++ ["#end"]

/-- The text of the whole chain. -/
def text (result : String) : ChainEnd → String
  | forEach => Text.nullText
  | map | filter | reduce .. => result

end ChainEnd

/-- Whether a list operation consumes items by plain parameters and nothing else; the initial
value of a reduction is rendered without lines and temporaries. -/
inductive Walker.Consumes (w : Walker) (c : ListCall) (args : List NodeId) (item : String)
    (calls : Array IntegrationId) :
    ListOperation → ChainEnd → Array IntegrationId → Prop where
  | items {parameter : NodeId} {operation : ListOperation} {ending : ChainEnd}
      (ends : ChainEnd.ofOperation? operation = some ending) (single : c.parameters = [parameter])
      (plain : w.arena.BindsPlainly w.dialect parameter item) :
      Consumes w c args item calls operation ending calls
  | reduce {first parameter : NodeId} {accumulator : String}
      (pair : c.parameters = [first, parameter])
      (accumulates : w.arena.BindsPlainly w.dialect first accumulator)
      (plain : w.arena.BindsPlainly w.dialect parameter item) (unseeded : args[1]? = none) :
      Consumes w c args item calls .reduce (.reduce accumulator none) calls
  | reduceFrom {first parameter initial : NodeId} {accumulator text : String}
      {later : Array IntegrationId} (pair : c.parameters = [first, parameter])
      (accumulates : w.arena.BindsPlainly w.dialect first accumulator)
      (plain : w.arena.BindsPlainly w.dialect parameter item) (seeded : args[1]? = some initial)
      (silent : w.Silent (w.arena.argumentExpr initial) text 0 calls later) :
      Consumes w c args item calls .reduce (.reduce accumulator (some text)) later

/-- The lines of a chain behind so many temporaries, over a list whose text takes some more:
the result is allocated, the header is written, each stage hands over to the next one, and the
last item is consumed. -/
def chainLines (before used : Nat) (list : String) (stages : List ChainStage)
    (last : ChainStage) (ending : ChainEnd) : List String :=
  let result := Render.tempName (before + 1)
  let temps := before + ending.temps + used
  ending.opening result ++ ending.guard list ++
    [foreachLine (firstItem stages last.item) list] ++ handOver temps stages last.item ++
    ending.consume result last.item (Render.tempName (temps + stages.length + 1)) last.value ++
    ["#end"]

/-! ### Plain parameters -/

/-- A callback does not read a parameter that it does not have. -/
theorem Arena.not_parameterUsed_of_length_le {a : Arena} {parameters : List NodeId}
    {position : Nat} (h : parameters.length ≤ position) (body : NodeId) :
    a.parameterUsed parameters position body = false := by
  unfold parameterUsed
  rw [List.getElem?_eq_none h]

namespace Walker

variable {w : Walker} {parameter source : NodeId} {item value : String}

/-- A plain parameter is bound without any lines. -/
theorem loopVariable_of_plain (h : w.arena.BindsPlainly w.dialect parameter item) :
    w.loopVariable (some parameter) = pure item := by
  obtain ⟨name, text, hparameter, hname, haddress⟩ := h
  unfold loopVariable
  dsimp only
  rw [node_eq_pure hparameter, pure_bind]
  dsimp only
  rw [node_eq_pure hname, pure_bind]
  dsimp only
  rw [address, haddress]
  rfl

/-- A plain parameter is assigned, unless it is the variable itself. -/
theorem bindParameter_of_plain (h : w.arena.BindsPlainly w.dialect parameter item)
    (value : String) :
    w.bindParameter parameter value =
      if item ≠ value then Render.assign item value else pure () := by
  obtain ⟨name, text, hparameter, hname, haddress⟩ := h
  unfold bindParameter
  rw [node_eq_pure hparameter, pure_bind]
  dsimp only
  rw [node_eq_pure hname, pure_bind]
  dsimp only
  rw [address, haddress, Render.ofExcept, pure_bind]
  split <;> simp

/-- The variable of a loop needs no assignment. -/
theorem bindItemParameters_of_plain (h : w.arena.BindsPlainly w.dialect parameter item)
    (list : String) : w.bindItemParameters [parameter] item list = pure () := by
  unfold bindItemParameters
  simp [bindParameter_of_plain h]

/-- A source that is a reference needs no temporary. -/
theorem emits_reference {list : String} {temps : Nat} {calls later : Array IntegrationId}
    (h : w.Silent source list temps calls later) (href : Text.isReference list = true)
    {out : Output} (hcalls : out.integrations = calls) :
    (w.reference source).Emits out list [] temps later := by
  unfold Render.Emits reference
  rw [(h out hcalls).runOn_bind, toReference, if_pos href]
  rfl

/-- The stages of a chain are calls of `map`. -/
theorem ChainOver.exists_mapChain {id : NodeId} {list : String} {temps : Nat}
    {calls later : Array IntegrationId} {stages : List ChainStage}
    (h : w.ChainOver source list temps calls id stages later) :
    ∃ maps, w.arena.MapChain id maps source ∧ maps.length = stages.length := by
  induction h with
  | source first => exact ⟨[], .source first, rfl⟩
  | stage call inner single plain silent ih =>
    obtain ⟨maps, hmaps, hlength⟩ := ih
    exact ⟨_ :: maps, .stage call hmaps, by simp [hlength]⟩

end Walker

/-! ### Bodies of callbacks -/

namespace Program

variable {p : Program} {dialect : Dialect} {n : Nat} {body : NodeId} {value : String}
  {calls later : Array IntegrationId}

/-- A body that can be rendered as an expression is none of a block. -/
theorem callbackBody_of_silent {temps : Nat}
    (h : (p.walkerWithin dialect n).Silent body value temps calls later) :
    (p.walkerWithin dialect n).callbackBody body =
      (p.walkerWithin dialect n).materializeNode body := by
  have hrun := h { integrations := calls } rfl
  cases n with
  | zero => cases hrun
  | succ n =>
    have hrun : ((p.walkerWithin dialect n).renderExpression body).runOn { integrations := calls } =
      (.ok value, _) := hrun
    unfold Walker.callbackBody
    cases hget : p.arena.get? body with
    | none =>
      rw [Walker.renderExpression_dangling (by rw [p.arena_walkerWithin, hget])] at hrun
      cases hrun
    | some node =>
      rw [node_of_get? hget, pure_bind]
      unfold Walker.renderExpression at hrun
      rw [node_of_get? hget, pure_bind] at hrun
      cases node <;> first | rfl | cases hrun

/-- The value of a callback is stored in a temporary. -/
theorem emits_callbackBody (h : (p.walkerWithin dialect n).Silent body value 0 calls later)
    {out : Output} (hcalls : out.integrations = calls) :
    ((p.walkerWithin dialect n).callbackBody body).Emits out (Render.tempName (out.temps + 1))
      [setLine (Render.tempName (out.temps + 1)) value] 1 later := by
  rw [callbackBody_of_silent h]
  unfold Render.Emits Walker.materializeNode
  rw [(h out hcalls).runOn_bind, Render.emits_materialize, Output.extend_extend]
  rfl

/-! ### Stages -/

variable {id source : NodeId} {list : String} {temps : Nat} {stages : List ChainStage}
  {header : String → String → Render Unit} {front : String → String → List String}

/-- The loop over a chain is opened and its stages are rendered: first the header, over the
source and with the variable of the first stage, then what the stages hand over. -/
theorem emits_renderStages
    (hheader : ∀ item list out, (header item list).Emits out () (front item list) 0
      out.integrations)
    (hchain : (p.walkerWithin dialect n).ChainOver source list temps calls id stages later)
    {bound : Nat} (hbound : stages.length ≤ bound) (item : String) {out : Output}
    (hcalls : out.integrations = calls) :
    ((p.walkerWithin dialect n).renderStages (p.arena.fusedChainWithin bound id).2 header
      (p.arena.fusedChainWithin bound id).1 item).Emits out list
        (front (firstItem stages item) list ++ handOver (out.temps + temps) stages item)
        (temps + stages.length) later := by
  induction hchain generalizing bound item with
  | source first silent reference =>
    rw [p.arena_walkerWithin] at first
    rw [Arena.fusedChainWithin_of_not_stage first]
    unfold Render.Emits Walker.renderStages
    rw [(Walker.emits_reference silent reference hcalls).runOn_bind, (hheader _ _ _).runOn_bind,
      Render.runOn_pure, Output.extend_extend, handOver, List.append_nil]
    rfl
  | @stage id parameter c stages stageItem value middle later call inner single plain silent ih =>
    rw [p.arena_walkerWithin] at call
    rw [List.length_append, List.length_singleton] at hbound
    obtain ⟨bound, rfl⟩ := Nat.exists_eq_succ_of_ne_zero (n := bound) (by omega)
    have hunused : c.parameters.length ≤ mapListPosition := by
      simp [single, mapListPosition]
    rw [Arena.fusedChainWithin_succ call (Arena.not_parameterUsed_of_length_le hunused _)]
    have hlength : stages.length ≤ bound := by omega
    have hinner := ih hlength stageItem
    -- the inner stages have called what the chain up to here calls
    have hopened : (out.extend (front (firstItem stages stageItem) list ++
        handOver (out.temps + temps) stages stageItem) (temps + stages.length)
        middle).integrations = middle := rfl
    have hbody := emits_callbackBody silent hopened
    unfold Render.Emits Walker.renderStages
    rw [single, List.head?_cons, Walker.loopVariable_of_plain plain, pure_bind,
      hinner.runOn_bind, Walker.bindItemParameters_of_plain plain, pure_bind, hbody.runOn_bind,
      (Render.emits_assign _ _ _).runOn_bind, Render.runOn_pure, Output.extend_extend,
      Output.extend_extend, handOver_concat, firstItem_concat]
    simp [Nat.add_assoc]

/-- The loop over a chain, whose length is no concern. -/
theorem emits_loopOver
    (hheader : ∀ item list out, (header item list).Emits out () (front item list) 0
      out.integrations)
    (hchain : (p.walkerWithin dialect n).ChainOver source list temps calls id stages later)
    (item : String) {out : Output} (hcalls : out.integrations = calls) :
    ((p.walkerWithin dialect n).loopOver id item false header).Emits out list
      (front (firstItem stages item) list ++ handOver (out.temps + temps) stages item)
      (temps + stages.length) later := by
  unfold Walker.loopOver Arena.fusedChain
  rw [p.arena_walkerWithin]
  obtain ⟨calls, hmaps, hlength⟩ := hchain.exists_mapChain
  rw [p.arena_walkerWithin] at hmaps
  exact emits_renderStages hheader hchain (hlength ▸ hmaps.length_le) item hcalls

/-! ### Consumers -/

variable {c : ListCall} {args : List NodeId} {parameter first : NodeId}
  {item accumulator : String} {middle : Array IntegrationId} {out : Output} {before : Nat}

section

variable (hchain : (p.walkerWithin dialect n).ChainOver source list temps calls c.receiver stages
    middle)
  (hplain : (p.walkerWithin dialect n).arena.BindsPlainly (p.walkerWithin dialect n).dialect
    parameter item)
  (hbody : (p.walkerWithin dialect n).Silent c.body value 0 middle later)
  (hcalls : out.integrations = calls)

include hchain hplain hcalls

/-- The loop opens on the list, and the stages hand the item over one after the other. -/
theorem emits_itemLoop (single : c.parameters = [parameter]) :
    ((p.walkerWithin dialect n).itemLoop c).Emits out item
      (foreachLine (firstItem stages item) list ::
        handOver (out.temps + temps) stages item) (temps + stages.length) middle := by
  have hloop := emits_loopOver Render.emits_openLoop hchain item hcalls
  have hunused : c.parameters.length ≤ mapListPosition := by
    simp [single, mapListPosition]
  unfold Render.Emits Walker.itemLoop
  rw [Arena.not_parameterUsed_of_length_le hunused, single, List.head?_cons,
    Walker.loopVariable_of_plain hplain, pure_bind]
  dsimp only
  rw [hloop.runOn_bind, Walker.bindItemParameters_of_plain hplain, pure_bind, Render.runOn_pure]
  rfl

include hbody

/-- The loop of a consumer that takes the items alone, up to the value of its callback. -/
theorem emits_itemBody (single : c.parameters = [parameter]) {β : Type}
    (next : String → String → Render β) :
    ((p.walkerWithin dialect n).itemLoop c >>= fun item =>
      (p.walkerWithin dialect n).callbackBody c.body >>= next item).runOn out =
      (next item (Render.tempName (out.temps + temps + stages.length + 1))).runOn
        (out.extend
          (foreachLine (firstItem stages item) list ::
            handOver (out.temps + temps) stages item ++
              [setLine (Render.tempName (out.temps + temps + stages.length + 1)) value])
          (temps + stages.length + 1) later) := by
  have hloop := emits_itemLoop hchain hplain hcalls single
  have hopened : (out.extend (foreachLine (firstItem stages item) list ::
      handOver (out.temps + temps) stages item) (temps + stages.length) middle).integrations =
        middle := rfl
  have hvalue := emits_callbackBody hbody hopened
  rw [hloop.runOn_bind, hvalue.runOn_bind, Output.extend_extend, Output.temps_extend,
    ← Nat.add_assoc]

/-- A consumer that collects in a list what it keeps of each item. -/
theorem emits_collectingLoop (single : c.parameters = [parameter])
    (keep : String → String → String → Render Unit) {kept : List String}
    (hkeep : ∀ out : Output, (keep (Render.tempName (before + 1)) item
      (Render.tempName (before + 1 + temps + stages.length + 1))).Emits out () kept 0
        out.integrations)
    (hbefore : out.temps = before) :
    (do
      let result ← Render.freshTemp
      Render.assign result "[]"
      let item ← (p.walkerWithin dialect n).itemLoop c
      let value ← (p.walkerWithin dialect n).callbackBody c.body
      keep result item value
      Render.close
      return result : Render String).Emits out (Render.tempName (before + 1))
      (setLine (Render.tempName (before + 1)) "[]" :: foreachLine (firstItem stages item) list ::
        handOver (before + 1 + temps) stages item ++
        [setLine (Render.tempName (before + 1 + temps + stages.length + 1)) value] ++ kept ++
        ["#end"])
      (1 + temps + stages.length + 1) later := by
  subst hbefore
  unfold Render.Emits
  rw [(Render.emits_freshTemp out).runOn_bind, (Render.emits_assign _ _ _).runOn_bind,
    Output.extend_extend]
  have hstart : (out.extend ([] ++ [setLine (Render.tempName (out.temps + 1)) "[]"]) (1 + 0)
      out.integrations).integrations = calls := hcalls
  refine (emits_itemBody hchain hplain hbody hstart single _).trans ?_
  rw [Output.temps_extend, (hkeep _).runOn_bind, (Render.emits_close _).runOn_bind,
    Render.runOn_pure]
  simp [Output.extend_extend, Nat.add_assoc]

/-- A map creates a list in front of its loop and adds to it inside. -/
theorem emits_mapLoop (single : c.parameters = [parameter]) :
    ((p.walkerWithin dialect n).mapLoop c).Emits out (Render.tempName (out.temps + 1))
      (chainLines out.temps temps list stages ⟨item, value⟩ .map) (1 + temps + stages.length + 1)
      later := by
  have hloop := emits_collectingLoop hchain hplain hbody hcalls single
    (fun result _ value => Render.discard s!"{result}.add({value})")
    (fun out => Render.emits_discard _ out) rfl
  refine Eq.trans hloop ?_
  simp [chainLines, ChainEnd.opening, ChainEnd.guard, ChainEnd.consume, ChainEnd.temps]

/-- A loop for effect yields nothing and creates nothing. -/
theorem emits_forEachLoop (single : c.parameters = [parameter]) :
    ((p.walkerWithin dialect n).forEachLoop c).Emits out Text.nullText
      (chainLines out.temps temps list stages ⟨item, value⟩ .forEach)
      (0 + temps + stages.length + 1) later := by
  have hloop := emits_itemBody hchain hplain hbody hcalls single fun _ _ => do
    Render.close
    return Text.nullText
  unfold Render.Emits Walker.forEachLoop
  refine hloop.trans ?_
  rw [(Render.emits_close _).runOn_bind, Render.runOn_pure]
  simp [Output.extend_extend, chainLines, ChainEnd.opening, ChainEnd.guard, ChainEnd.consume,
    ChainEnd.temps, Nat.add_assoc]

/-- A filter adds the item itself, behind a test. -/
theorem emits_filterLoop (single : c.parameters = [parameter]) :
    ((p.walkerWithin dialect n).filterLoop c).Emits out (Render.tempName (out.temps + 1))
      (chainLines out.temps temps list stages ⟨item, value⟩ .filter)
      (1 + temps + stages.length + 1) later := by
  have hloop := emits_collectingLoop hchain hplain hbody hcalls single
    (fun result item keep => Render.guarded keep (Render.discard s!"{result}.add({item})"))
    (fun _ => (Render.emits_discard _ _).guarded) rfl
  refine Eq.trans hloop ?_
  simp [chainLines, ChainEnd.opening, ChainEnd.guard, ChainEnd.consume, ChainEnd.temps]

end

/-! ### Reductions -/

/-- Without an initial value the list must not be empty, which the template checks first. -/
theorem emits_emptyReduceGuard (list accumulator : String) (out : Output) :
    (Walker.emptyReduceGuard list).Emits out () (ChainEnd.guard list (.reduce accumulator none)) 0
      out.integrations :=
  (Render.emits_emit _ _).guarded

/-- One round: the result is copied to the accumulator, and the value of the callback to the
result. -/
theorem emits_reduceStep (pair : c.parameters = [first, parameter])
    (haccumulates : (p.walkerWithin dialect n).arena.BindsPlainly
      (p.walkerWithin dialect n).dialect first accumulator)
    (hplain : (p.walkerWithin dialect n).arena.BindsPlainly (p.walkerWithin dialect n).dialect
      parameter item)
    (hbody : (p.walkerWithin dialect n).Silent c.body value 0 calls later)
    (hcalls : out.integrations = calls) {result : String} (hne : accumulator ≠ result) :
    ((p.walkerWithin dialect n).reduceStep c result item list).Emits out ()
      (ChainEnd.round result accumulator (Render.tempName (out.temps + 1)) value) 1 later := by
  have hstart : (out.extend [setLine accumulator result] 0 out.integrations).integrations =
      calls := hcalls
  have hvalue := emits_callbackBody hbody hstart
  have htwo : ∀ bind : NodeId × String → Render Unit,
      ([first, parameter].zip [result, item, Walker.loopIndex, list]).forM bind =
        bind (first, result) >>= fun _ => bind (parameter, item) >>= fun _ => pure () :=
    fun _ => rfl
  unfold Render.Emits Walker.reduceStep
  rw [pair, htwo]
  dsimp only
  rw [Walker.bindParameter_of_plain haccumulates, Walker.bindParameter_of_plain hplain, if_pos hne,
    if_neg (not_not_intro rfl), pure_bind, bind_pure_unit, (Render.emits_assign _ _ _).runOn_bind,
    hvalue.runOn_bind, Render.emits_assign]
  simp [Output.extend_extend, ChainEnd.round]

/-- Without an initial value the first round takes the item itself. -/
theorem emits_firstOrRound (pair : c.parameters = [first, parameter])
    (haccumulates : (p.walkerWithin dialect n).arena.BindsPlainly
      (p.walkerWithin dialect n).dialect first accumulator)
    (hplain : (p.walkerWithin dialect n).arena.BindsPlainly (p.walkerWithin dialect n).dialect
      parameter item)
    (hbody : (p.walkerWithin dialect n).Silent c.body value 0 calls later)
    (hcalls : out.integrations = calls) {result : String} (hne : accumulator ≠ result) :
    (Render.choice s!"{Walker.loopIndex} == 0" (Render.assign result item)
      ((p.walkerWithin dialect n).reduceStep c result item list)).Emits out ()
      (ChainEnd.consume result item (Render.tempName (out.temps + 1)) value
        (.reduce accumulator none)) 1 later := by
  have hstart : (out.extend (ifLine "$foreach.index == 0" :: [setLine result item] ++ ["#else"]) 0
      out.integrations).integrations = calls := hcalls
  exact (Render.emits_assign result item _).choice
    (emits_reduceStep pair haccumulates hplain hbody hstart hne)

section

variable (hchain : (p.walkerWithin dialect n).ChainOver source list temps calls c.receiver stages
    middle)
  (pair : c.parameters = [first, parameter])
  (haccumulates : (p.walkerWithin dialect n).arena.BindsPlainly
    (p.walkerWithin dialect n).dialect first accumulator)
  (hplain : (p.walkerWithin dialect n).arena.BindsPlainly (p.walkerWithin dialect n).dialect
    parameter item)
  (hbody : (p.walkerWithin dialect n).Silent c.body value 0 middle later)
  (hne : accumulator ≠ Render.tempName (out.temps + 1))

include hchain pair haccumulates hplain hbody hne

/-- Without an initial value the result starts as the first item, and the others are folded into
it. -/
theorem emits_reduceLoop_unseeded (hcalls : out.integrations = calls) :
    ((p.walkerWithin dialect n).reduceLoop c none).Emits out (Render.tempName (out.temps + 1))
      (chainLines out.temps temps list stages ⟨item, value⟩ (.reduce accumulator none))
      (1 + temps + stages.length + 1) later := by
  have hunused : c.parameters.length ≤ reduceListPosition := by
    simp [pair, reduceListPosition]
  have hsecond : c.parameters[1]? = some parameter := by rw [pair]; rfl
  have hheader : ∀ item list out,
      (Walker.emptyReduceGuard list >>= fun _ => Render.openLoop item list).Emits out ()
        (ChainEnd.guard list (.reduce accumulator none) ++ [foreachLine item list]) 0
        out.integrations := by
    intro item list out
    unfold Render.Emits
    rw [(emits_emptyReduceGuard list accumulator out).runOn_bind, Render.emits_openLoop,
      Output.extend_extend]
    rfl
  have hstart : (out.extend [] 1 out.integrations).integrations = calls := hcalls
  have hloop := emits_loopOver hheader hchain item hstart
  unfold Render.Emits Walker.reduceLoop
  rw [(Render.emits_freshTemp out).runOn_bind]
  simp only [Option.isNone_none, if_true]
  rw [hsecond, Walker.loopVariable_of_plain hplain, pure_bind,
    Arena.not_parameterUsed_of_length_le hunused, hloop.runOn_bind,
    (emits_firstOrRound pair haccumulates hplain hbody rfl hne).runOn_bind,
    (Render.emits_close _).runOn_bind, Render.runOn_pure]
  simp [Output.extend_extend, chainLines, ChainEnd.opening, ChainEnd.temps, Nat.add_assoc]

/-- With an initial value all rounds are alike. -/
theorem emits_reduceLoop_seeded {initial : NodeId} {text : String}
    {before : Array IntegrationId}
    (hinitial : (p.walkerWithin dialect n).Silent initial text 0 before calls)
    (hcalls : out.integrations = before) :
    ((p.walkerWithin dialect n).reduceLoop c (some initial)).Emits out
      (Render.tempName (out.temps + 1))
      (chainLines out.temps temps list stages ⟨item, value⟩ (.reduce accumulator (some text)))
      (1 + temps + stages.length + 1) later := by
  have hunused : c.parameters.length ≤ reduceListPosition := by
    simp [pair, reduceListPosition]
  have hsecond : c.parameters[1]? = some parameter := by rw [pair]; rfl
  have hstored : ((p.walkerWithin dialect n).assignNode (Render.tempName (out.temps + 1))
      initial).Emits (out.extend [] 1 out.integrations) ()
        [setLine (Render.tempName (out.temps + 1)) text] 0 calls := by
    unfold Render.Emits Walker.assignNode
    rw [(hinitial (out.extend [] 1 out.integrations) hcalls).runOn_bind, Render.emits_assign,
      Output.extend_extend]
    rfl
  have hseeded : ((out.extend [] 1 out.integrations).extend
      [setLine (Render.tempName (out.temps + 1)) text] 0 calls).integrations = calls := rfl
  have hloop := emits_loopOver Render.emits_openLoop hchain item hseeded
  unfold Render.Emits Walker.reduceLoop
  rw [(Render.emits_freshTemp out).runOn_bind]
  dsimp only
  rw [hstored.runOn_bind, hsecond, Walker.loopVariable_of_plain hplain, pure_bind,
    Arena.not_parameterUsed_of_length_le hunused]
  simp only [Option.isNone_some, Bool.false_eq_true, if_false]
  rw [hloop.runOn_bind, (emits_reduceStep pair haccumulates hplain hbody rfl hne).runOn_bind,
    (Render.emits_close _).runOn_bind, Render.runOn_pure]
  simp [Output.extend_extend, chainLines, ChainEnd.opening, ChainEnd.guard, ChainEnd.consume,
    ChainEnd.temps, Nat.add_assoc]

end

/-- Every list operation writes the lines of its chain. -/
theorem emits_listOperation {operation : Walker.ListOperation} {ending : ChainEnd}
    {before : Array IntegrationId}
    (hconsumes : (p.walkerWithin dialect n).Consumes c args item before operation ending calls)
    (hchain : (p.walkerWithin dialect n).ChainOver source list temps calls c.receiver stages
      middle)
    (hbody : (p.walkerWithin dialect n).Silent c.body value 0 middle later)
    (hnames : ∀ accumulator initial, ending = .reduce accumulator initial →
      accumulator ≠ Render.tempName (out.temps + 1))
    (hcalls : out.integrations = before) :
    ((p.walkerWithin dialect n).listOperation operation c args).Emits out
      (ending.text (Render.tempName (out.temps + 1)))
      (chainLines out.temps temps list stages ⟨item, value⟩ ending)
      (ending.temps + temps + stages.length + 1) later := by
  cases hconsumes with
  | items ends single plain =>
    cases operation with
    | map =>
      cases ends
      exact emits_mapLoop hchain plain hbody hcalls single
    | forEach =>
      cases ends
      exact emits_forEachLoop hchain plain hbody hcalls single
    | filter =>
      cases ends
      exact emits_filterLoop hchain plain hbody hcalls single
    | reduce => cases ends
  | reduce pair accumulates plain unseeded =>
    unfold Walker.listOperation
    rw [unseeded]
    exact emits_reduceLoop_unseeded hchain pair accumulates plain hbody (hnames _ _ rfl) hcalls
  | reduceFrom pair accumulates plain seeded silent =>
    unfold Walker.listOperation
    rw [seeded]
    exact emits_reduceLoop_seeded hchain pair accumulates plain hbody (hnames _ _ rfl) silent
      hcalls

end Program

/-- A chain of list operations writes exactly these lines, for chains of all lengths and all
four consumers.  The source is rendered without lines to a reference and is no stage itself,
each callback has a plain parameter for the item and nothing else (that of a reduction: the
accumulator and the item), and all bodies and the initial value are rendered without lines and
temporaries.  Names do not matter but for the accumulator, which must not be the temporary of
the result. -/
theorem emits_chain {p : Program} {config : ResolverConfig} {n : Nat} {id callee : NodeId}
    {args : List NodeId} {name : String} {operation : Walker.ListOperation} {c : ListCall}
    {source : NodeId} {list item value : String} {temps : Nat} {stages : List ChainStage}
    {ending : ChainEnd} {before calls middle later : Array IntegrationId} {out : Output}
    (hcall : p.arena.get? id = some (.call callee args))
    (hmember : p.arena.get? (p.arena.unwrapParens callee) = some (.member c.receiver name))
    (hname : Walker.ListOperation.ofName? name = some operation)
    (hcallback : p.arena.callback? args = some (c.parameters, c.body))
    (hconsumes : (p.walkerWithin (.resolver config) n).Consumes c args item before operation
      ending calls)
    (hchain : (p.walkerWithin (.resolver config) n).ChainOver source list temps calls c.receiver
      stages middle)
    (hbody : (p.walkerWithin (.resolver config) n).Silent c.body value 0 middle later)
    (hnames : ∀ accumulator initial, ending = .reduce accumulator initial →
      accumulator ≠ Render.tempName (out.temps + 1))
    (hcalls : out.integrations = before) :
    ((p.walkerWithin (.resolver config) (n + 1)).expression id).runOn out =
      (.ok (ending.text (Render.tempName (out.temps + 1))),
        { lines := out.lines ++
            (chainLines out.temps temps list stages ⟨item, value⟩ ending).toArray
          temps := out.temps + (ending.temps + temps + stages.length + 1)
          integrations := later }) := by
  have hloops := Program.emits_listOperation hconsumes hchain hbody hnames hcalls
  have harena : (p.walkerWithin (.resolver config) n).arena = p.arena :=
    p.arena_walkerWithin (.resolver config) n
  change ((p.walkerWithin (.resolver config) n).renderExpression id).runOn out = _
  -- down from the call to the operation: it is no integration, and loops are allowed
  unfold Walker.renderExpression
  rw [Program.node_of_get? hcall, pure_bind]
  dsimp only
  unfold Walker.call
  rw [harena, Arena.resolveIntegration_of_member hmember]
  dsimp only
  rw [Program.node_of_get? hmember, pure_bind]
  dsimp only
  have hloop : (p.walkerWithin (.resolver config) n).requireLoops s!"`{name}`" = pure () := by
    unfold Walker.requireLoops
    rw [p.dialect_walkerWithin]
    rfl
  unfold Walker.method
  rw [hname, harena, hcallback]
  dsimp only
  rw [hloop, pure_bind]
  exact hloops

/-- The closure `input => { return input.items.map(x => x.price).map(y => y.net).reduce((acc, z)
=> acc + z); }`. -/
def Program.netTotal : Program :=
  (Builder.of []
    [.identifier "x", .parameter ⟨0⟩ none, .identifier "x", .member ⟨2⟩ "price",
      .function [⟨1⟩] ⟨3⟩, .identifier "input", .member ⟨5⟩ "items", .member ⟨6⟩ "map",
      .argument ⟨4⟩ none, .call ⟨7⟩ [⟨8⟩],
      .identifier "y", .parameter ⟨10⟩ none, .identifier "y", .member ⟨12⟩ "net",
      .function [⟨11⟩] ⟨13⟩, .member ⟨9⟩ "map", .argument ⟨14⟩ none, .call ⟨15⟩ [⟨16⟩],
      .identifier "acc", .parameter ⟨18⟩ none, .identifier "z", .parameter ⟨20⟩ none,
      .identifier "acc", .identifier "z", .binary ⟨22⟩ .add ⟨23⟩, .function [⟨19⟩, ⟨21⟩] ⟨24⟩,
      .member ⟨17⟩ "reduce", .argument ⟨25⟩ none, .call ⟨26⟩ [⟨27⟩],
      .returnValue (some ⟨28⟩), .block [⟨29⟩], .identifier "input", .parameter ⟨31⟩ none,
      .function [⟨32⟩] ⟨30⟩]).program

theorem emits_chain_netTotal :
    ((Program.netTotal.walkerWithin (.resolver {}) 6).expression ⟨28⟩).runOn {} =
      (.ok "$v1",
        { lines := #["#if($context.arguments.items.isEmpty())",
            "$util.error(\"Reduce of empty array with no initial value\", \"EmptyReduceNoInitial\")",
            "#end",
            "#foreach($x in $context.arguments.items)",
            "#set($v2 = $x.price)",
            "#set($y = $v2)",
            "#set($v3 = $y.net)",
            "#set($z = $v3)",
            "#if($foreach.index == 0)",
            "#set($v1 = $z)",
            "#else",
            "#set($acc = $v1)",
            "#set($v4 = ($acc + $z))",
            "#set($v1 = $v4)",
            "#end",
            "#end"]
          temps := 4 }) := by
  have hcalls : Program.netTotal.arena.get? ⟨28⟩ = some (.call ⟨26⟩ [⟨27⟩]) ∧
      Program.netTotal.arena.get? (Program.netTotal.arena.unwrapParens ⟨26⟩) =
        some (.member ⟨17⟩ "reduce") ∧
      Program.netTotal.arena.callback? [⟨27⟩] = some ([⟨19⟩, ⟨21⟩], ⟨24⟩) ∧
      Program.netTotal.arena.mapStage? ⟨17⟩ = some ⟨⟨9⟩, [⟨11⟩], ⟨13⟩⟩ ∧
      Program.netTotal.arena.mapStage? ⟨9⟩ = some ⟨⟨6⟩, [⟨1⟩], ⟨3⟩⟩ ∧
      Program.netTotal.arena.mapStage? ⟨6⟩ = none := by
    cbv
  have hparameters : Program.netTotal.arena.get? ⟨1⟩ = some (.parameter ⟨0⟩ none) ∧
      Program.netTotal.arena.get? ⟨0⟩ = some (.identifier "x") ∧
      Program.netTotal.arena.addressIn (.resolver {}) ⟨0⟩ = .ok "$x" ∧
      Program.netTotal.arena.get? ⟨11⟩ = some (.parameter ⟨10⟩ none) ∧
      Program.netTotal.arena.get? ⟨10⟩ = some (.identifier "y") ∧
      Program.netTotal.arena.addressIn (.resolver {}) ⟨10⟩ = .ok "$y" ∧
      Program.netTotal.arena.get? ⟨19⟩ = some (.parameter ⟨18⟩ none) ∧
      Program.netTotal.arena.get? ⟨18⟩ = some (.identifier "acc") ∧
      Program.netTotal.arena.addressIn (.resolver {}) ⟨18⟩ = .ok "$acc" ∧
      Program.netTotal.arena.get? ⟨21⟩ = some (.parameter ⟨20⟩ none) ∧
      Program.netTotal.arena.get? ⟨20⟩ = some (.identifier "z") ∧
      Program.netTotal.arena.addressIn (.resolver {}) ⟨20⟩ = .ok "$z" := by
    cbv
  obtain ⟨hcall, hmember, hcallback, hsecond, hfirst, hsource⟩ := hcalls
  obtain ⟨hx, hxname, hxaddress, hy, hyname, hyaddress, hacc, haccname, haccaddress, hz, hzname,
    hzaddress⟩ := hparameters
  have hitems : (Program.netTotal.walkerWithin (.resolver {}) 5).Silent ⟨6⟩
      "$context.arguments.items" 0 #[] #[] := by
    rintro ⟨lines, temps, calls⟩ rfl
    cbv
  have hprice : (Program.netTotal.walkerWithin (.resolver {}) 5).Silent ⟨3⟩ "$x.price" 0 #[]
      #[] := by
    rintro ⟨lines, temps, calls⟩ rfl
    cbv
  have hnet : (Program.netTotal.walkerWithin (.resolver {}) 5).Silent ⟨13⟩ "$y.net" 0 #[] #[] := by
    rintro ⟨lines, temps, calls⟩ rfl
    cbv
  have hsum : (Program.netTotal.walkerWithin (.resolver {}) 5).Silent ⟨24⟩ "($acc + $z)" 0 #[]
      #[] := by
    rintro ⟨lines, temps, calls⟩ rfl
    cbv
  rw [← Program.netTotal.arena_walkerWithin (.resolver {}) 5] at hfirst hsecond hsource
  have hplain : ∀ {parameter name : NodeId} {text address : String},
      Program.netTotal.arena.get? parameter = some (.parameter name none) →
      Program.netTotal.arena.get? name = some (.identifier text) →
      Program.netTotal.arena.addressIn (.resolver {}) name = .ok address →
      (Program.netTotal.walkerWithin (.resolver {}) 5).arena.BindsPlainly
        (Program.netTotal.walkerWithin (.resolver {}) 5).dialect parameter address := by
    intro parameter name text address hparameter hname haddress
    rw [Program.netTotal.arena_walkerWithin, Program.netTotal.dialect_walkerWithin]
    exact ⟨name, text, hparameter, hname, haddress⟩
  have hchain := ((Walker.ChainOver.source hsource hitems (by decide)).stage hfirst rfl
    (hplain hx hxname hxaddress) hprice).stage hsecond rfl (hplain hy hyname hyaddress) hnet
  have hconsumes : (Program.netTotal.walkerWithin (.resolver {}) 5).Consumes
      ⟨⟨17⟩, [⟨19⟩, ⟨21⟩], ⟨24⟩⟩ [⟨27⟩] "$z" #[] .reduce (.reduce "$acc" none) #[] :=
    .reduce rfl (hplain hacc haccname haccaddress) (hplain hz hzname hzaddress) rfl
  have hnames : ∀ accumulator initial, ChainEnd.reduce "$acc" none = .reduce accumulator initial →
      accumulator ≠ Render.tempName (({} : Output).temps + 1) := by
    rintro _ _ ⟨⟩
    decide +kernel
  have hcalls : ({} : Output).integrations = #[] := rfl
  have hrun := emits_chain hcall hmember rfl hcallback hconsumes hchain hsum hnames hcalls
  rw [hrun]
  cbv

end ClosureVtl
