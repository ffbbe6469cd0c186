/-
Module: ClosureVtl.Proofs.Render.LoopCount
Purpose: The number of loops that a chain of list operations is rendered to.
Main exports:
  Render.Loops, Arena.CallsList, Arena.MapChain, loopBreaks, Program.loops_loopOver,
  Program.countsChain, loopHeaders_of_chain
-/
import ClosureVtl.Proofs.Render.CallbackReturn
import ClosureVtl.Proofs.Render.LineCount

namespace ClosureVtl

/-!
The stages of a chain share one loop as long as no callback reads the whole list.  A
callback that does is a break on both of its sides: in front of it, because the list
that it reads has to be there, and behind it, because it cannot run inside the loop of
its consumer.  A break is one loop more, so the number of loops is read off the chain:
one, and one for each pair of neighbours of which one reads the list.

`Render.Loops` counts the loops of a step of rendering, and adds up along steps in a
row.  The two accounts of a chain, as the stages inside the loop of a consumer and as a
list of its own, are counted in one induction on the chain.
-/

/-! ### Counting loop headers -/

/-- Whether a line is the header of a loop. -/
def isLoopHeader (line : String) : Bool := "#foreach(".toList.isPrefixOf line.toList

/-- The number of loop headers among lines. -/
def loopHeaders (lines : List String) : Nat := lines.countP isLoopHeader

/-- Loop headers are the lines that open a loop. -/
theorem isLoopHeader_iff {line : String} : isLoopHeader line = true ↔ lineRole line = .loop := by
  unfold isLoopHeader lineRole
  constructor
  · intro h
    have hclose : line.toList ≠ "#end".toList := by
      intro he
      rw [he] at h
      exact absurd h (by decide)
    have halternative : line.toList ≠ "#else".toList := by
      intro he
      rw [he] at h
      exact absurd h (by decide)
    rw [if_neg hclose, if_neg halternative, if_pos h]
  · intro h
    split at h
    · cases h
    · split at h
      · cases h
      · split at h
        · next hprefix => exact hprefix
        · split at h <;> cases h

/-- The line that opens a loop is one of the headers that are counted. -/
theorem isLoopHeader_openLoop (item list : String) :
    isLoopHeader s!"#foreach({item} in {list})" = true :=
  isLoopHeader_iff.mpr (lineRole_openLoop item list)

namespace Render

variable {α β : Type} {x : Render α} {f : α → Render β} {k m : Nat}

/-- Whether every run of a step that ends well appends lines with this many loop
headers. -/
def Loops (x : Render α) (k : Nat) : Prop :=
  ∀ out value final, x.runOn out = (.ok value, final) →
    ∃ lines, final.lines.toList = out.lines.toList ++ lines ∧ loopHeaders lines = k

namespace Loops

/-- Returning a value opens no loop. -/
theorem pure (value : α) : (pure value : Render α).Loops 0 := Counts.pure value

/-- Loops add up along steps in a row. -/
theorem bind (first : x.Loops k) (next : ∀ value, (f value).Loops m) :
    (x >>= f).Loops (k + m) :=
  Counts.bind first fun value _ => next value

/-- A step that opens no loop in front of one that opens some. -/
theorem before (first : x.Loops 0) (next : ∀ value, (f value).Loops m) : (x >>= f).Loops m :=
  Counts.before first fun value _ => next value

/-- A step that opens some loops in front of one that opens none. -/
theorem after (first : x.Loops k) (next : ∀ value, (f value).Loops 0) : (x >>= f).Loops k :=
  Counts.after first fun value _ => next value

/-- A known result opens no loop. -/
theorem ofExcept (result : Except Fault α) : (Render.ofExcept result).Loops 0 :=
  Counts.ofExcept result

/-- A choice opens some loops if both sides open as many. -/
theorem ite {c : Prop} [Decidable c] {yes no : Render α} (hyes : yes.Loops k) (hno : no.Loops k) :
    (if c then yes else no).Loops k := by
  split
  · exact hyes
  · exact hno

/-- Steps over items that open none open none together. -/
theorem forM {items : List α} {f : α → Render PUnit} (h : ∀ item ∈ items, (f item).Loops 0) :
    (items.forM f).Loops 0 := by
  have hcount : Counts isLoopHeader (items.forM f) (items.map fun _ => 0).sum := Counts.forM h
  rwa [List.map_const', List.sum_replicate, nsmul_zero] at hcount

/-- A line of another role is not counted. -/
theorem emit {line : String} (h : lineRole line ≠ .loop) : (Render.emit line).Loops 0 :=
  Counts.emit_of_miss (Bool.eq_false_of_not_eq_true (isLoopHeader_iff.not.mpr h))

/-- The header of a loop is counted once. -/
theorem openLoop (item list : String) : (Render.openLoop item list).Loops 1 := by
  have hcount : Counts isLoopHeader (Render.openLoop item list)
      (if isLoopHeader s!"#foreach({item} in {list})" then 1 else 0) := Counts.emit _
  rwa [isLoopHeader_openLoop] at hcount

/-- A temporary that is taken is no line. -/
theorem freshTemp : Render.freshTemp.Loops 0 := Counts.freshTemp

/-- An assignment is no header. -/
theorem assign (target value : String) : (Render.assign target value).Loops 0 :=
  emit (by rw [lineRole_assign]; decide)

/-- Neither is a discarded value. -/
theorem discard (value : String) : (Render.discard value).Loops 0 :=
  emit (by rw [lineRole_discard]; decide)

/-- Neither is the end of a block. -/
theorem close : Render.close.Loops 0 := emit (by rw [lineRole_close]; decide)

/-- A value that is moved to a temporary is one assignment. -/
theorem materialize (value : String) : (Render.materialize value).Loops 0 := by
  apply before freshTemp
  intro temp
  apply before (assign temp value)
  intro _
  exact pure temp

/-- A branch opens the loops of its body. -/
theorem guarded (condition : String) {body : Render Unit} (h : body.Loops k) :
    (Render.guarded condition body).Loops k := by
  apply before (emit (by rw [lineRole_openBranch]; decide))
  intro _
  exact h.after fun _ => close

/-- A choice opens none if neither side does. -/
theorem choice (condition : String) {yes no : Render Unit} (hyes : yes.Loops 0)
    (hno : no.Loops 0) : (Render.choice condition yes no).Loops 0 := by
  apply before (emit (by rw [lineRole_openBranch]; decide))
  intro _
  apply before hyes
  intro _
  apply before (emit (by rw [lineRole_alternative]; decide))
  intro _
  exact hno.after fun _ => close

end Loops

end Render

/-! ### Callbacks with plain parameters -/

/-- Whether a parameter is a plain name without a default. -/
def Arena.isPlainParameter (a : Arena) (parameter : NodeId) : Bool :=
  match a.get? parameter with
  | some (.parameter name none) =>
    match a.get? name with
    | some (.identifier _) => true
    | _ => false
  | _ => false

/-- A plain parameter has a name and nothing else. -/
theorem Arena.exists_name_of_isPlainParameter {a : Arena} {parameter : NodeId}
    (h : a.isPlainParameter parameter = true) :
    ∃ name text, a.get? parameter = some (.parameter name none) ∧
      a.get? name = some (.identifier text) := by
  unfold isPlainParameter at h
  split at h
  · next name hparameter =>
    split at h
    · next text hname => exact ⟨name, text, hparameter, hname⟩
    · cases h
  · cases h

/-- Whether the callback of a list operation has the whole list as parameter at a
position and reads it. -/
def Arena.readsList (a : Arena) (position : Nat) (c : ListCall) : Bool :=
  c.parameters[position]?.any fun parameter => a.references c.body parameter

/-- For plain parameters the question whether the list is read is about one parameter and the
body. -/
theorem Arena.parameterUsed_eq_readsList {a : Arena} {c : ListCall} (position : Nat)
    (h : ∀ parameter ∈ c.parameters, a.isPlainParameter parameter = true) :
    a.parameterUsed c.parameters position c.body = a.readsList position c := by
  unfold parameterUsed readsList
  cases hat : c.parameters[position]? with
  | none => rfl
  | some parameter =>
    obtain ⟨name, text, hparameter, hname⟩ :=
      exists_name_of_isPlainParameter (h parameter (List.mem_of_getElem? hat))
    simp only [hparameter, hname, Option.any_some]

/-- Where the callback of a list operation takes the whole list. -/
def Walker.ListOperation.listPosition : Walker.ListOperation → Nat
  | .reduce => reduceListPosition
  | .map | .forEach | .filter => mapListPosition

namespace Walker

variable {w : Walker} {c : ListCall} {k : Nat}

/-- Looking up a node writes nothing. -/
theorem loops_node (id : NodeId) : (w.node id).Loops 0 := .ofExcept _

/-- What is rendered from a node that is known is what counts. -/
theorem loops_node_bind {β : Type} {f : Node → Render β} {id : NodeId} {node : Node}
    (hn : w.arena.get? id = some node) (h : (f node).Loops k) : (w.node id >>= f).Loops k := by
  rw [node_eq_pure hn]
  exact h

/-- What is no reference is moved to a temporary, without a loop. -/
theorem loops_toReference (value : String) : (toReference value).Loops 0 :=
  .ite (.pure value) (.materialize value)

/-- A reference opens the loops of its expression. -/
theorem loops_reference {id : NodeId} (h : (w.expression id).Loops k) :
    (w.reference id).Loops k :=
  h.after loops_toReference

/-- A plain parameter is assigned, or it is the loop variable itself. -/
theorem loops_bindParameter {parameter : NodeId} (h : w.arena.isPlainParameter parameter = true)
    (source : String) : (w.bindParameter parameter source).Loops 0 := by
  obtain ⟨name, text, hparameter, hname⟩ := Arena.exists_name_of_isPlainParameter h
  apply loops_node_bind hparameter
  apply loops_node_bind hname
  apply Render.Loops.before (.ofExcept _)
  intro target
  exact .ite ((Render.Loops.assign target source).before fun _ => .pure ()) (.pure ())

/-- Choosing the variable of a loop writes nothing. -/
theorem loops_loopVariable (parameter : Option NodeId) : (w.loopVariable parameter).Loops 0 := by
  cases parameter with
  | none => exact .freshTemp
  | some parameter =>
    apply Render.Loops.before (loops_node parameter)
    intro node
    split
    · next name =>
      apply Render.Loops.before (loops_node name)
      intro node
      split
      · exact .ofExcept _
      · exact .freshTemp
    · exact .freshTemp

/-- Binding plain parameters from the values of a loop opens no loop. -/
theorem loops_bindParameters {parameters : List NodeId} {sources : List String}
    (h : ∀ parameter ∈ parameters, w.arena.isPlainParameter parameter = true) :
    ((parameters.zip sources).forM fun (parameter, source) =>
      w.bindParameter parameter source).Loops 0 :=
  .forM fun binding hm => loops_bindParameter (h binding.1 (List.of_mem_zip hm).1) binding.2

/-! ### Stages

The innermost stage is where the header stands; all others add what they bind.
-/

/-- The innermost stage renders the source and writes the header. -/
theorem loops_renderStages_nil {source : NodeId} {header : String → String → Render Unit}
    (hsource : (w.expression source).Loops k) (hheader : ∀ item list, (header item list).Loops 1)
    (item : String) : (w.renderStages source header [] item).Loops (k + 1) := by
  apply Render.Loops.bind (loops_reference hsource)
  intro list
  exact (hheader item list).after fun _ => .pure list

/-- A stage around it binds its parameters and assigns its value, without a loop of its own. -/
theorem loops_renderStages_cons {source : NodeId} {header : String → String → Render Unit}
    {inner : List ListCall}
    (hplain : ∀ parameter ∈ c.parameters, w.arena.isPlainParameter parameter = true)
    (hbody : (w.callbackBody c.body).Loops 0)
    (hinner : ∀ item, (w.renderStages source header inner item).Loops k) (item : String) :
    (w.renderStages source header (c :: inner) item).Loops k := by
  apply Render.Loops.before (loops_loopVariable _)
  intro stageItem
  apply Render.Loops.after (hinner stageItem)
  intro list
  apply Render.Loops.before (loops_bindParameters hplain)
  intro _
  apply Render.Loops.before hbody
  intro value
  exact (Render.Loops.assign item value).before fun _ => .pure list

/-! ### Consumers

Each consumer opens the loops that its chain opens, if its callback opens none.
-/

section

variable (hplain : ∀ parameter ∈ c.parameters, w.arena.isPlainParameter parameter = true)
  (hbody : (w.callbackBody c.body).Loops 0)

include hplain

/-- The item of a consumer is bound within the loop that its chain opens. -/
theorem loops_itemLoop
    (hloop : ∀ item, (w.loopOver c.receiver item
      (w.arena.parameterUsed c.parameters mapListPosition c.body) Render.openLoop).Loops k) :
    (w.itemLoop c).Loops k := by
  apply Render.Loops.before (loops_loopVariable _)
  intro item
  apply Render.Loops.after (hloop item)
  intro list
  exact (loops_bindParameters hplain).before fun _ => .pure item

include hbody

/-- One round of a reduction opens no loop. -/
theorem loops_reduceStep (acc item list : String) : (w.reduceStep c acc item list).Loops 0 := by
  apply Render.Loops.before (loops_bindParameters hplain)
  intro _
  exact hbody.before fun value => .assign acc value

/-- A mapping loop puts an assignment in front of the loop and a call into it. -/
theorem loops_mapLoop
    (hloop : ∀ item, (w.loopOver c.receiver item
      (w.arena.parameterUsed c.parameters mapListPosition c.body) Render.openLoop).Loops k) :
    (w.mapLoop c).Loops k := by
  apply Render.Loops.before .freshTemp
  intro out
  apply Render.Loops.before (.assign out _)
  intro _
  apply Render.Loops.after (loops_itemLoop hplain hloop)
  intro item
  apply Render.Loops.before hbody
  intro value
  apply Render.Loops.before (.discard _)
  intro _
  exact Render.Loops.close.before fun _ => .pure out

/-- A loop for effects puts nothing around its chain. -/
theorem loops_forEachLoop
    (hloop : ∀ item, (w.loopOver c.receiver item
      (w.arena.parameterUsed c.parameters mapListPosition c.body) Render.openLoop).Loops k) :
    (w.forEachLoop c).Loops k := by
  apply Render.Loops.after (loops_itemLoop hplain hloop)
  intro item
  apply Render.Loops.before hbody
  intro value
  exact Render.Loops.close.before fun _ => .pure _

/-- A filtering loop puts a branch into the loop of its chain. -/
theorem loops_filterLoop
    (hloop : ∀ item, (w.loopOver c.receiver item
      (w.arena.parameterUsed c.parameters mapListPosition c.body) Render.openLoop).Loops k) :
    (w.filterLoop c).Loops k := by
  apply Render.Loops.before .freshTemp
  intro out
  apply Render.Loops.before (.assign out _)
  intro _
  apply Render.Loops.after (loops_itemLoop hplain hloop)
  intro item
  apply Render.Loops.before hbody
  intro keep
  apply Render.Loops.before (.guarded keep (.discard _))
  intro _
  exact Render.Loops.close.before fun _ => .pure out

/-- With or without a seed a reduction opens the loops of its chain; the test for an empty list
is a branch. -/
theorem loops_reduceLoop {initial : Option NodeId}
    (hinitial : ∀ expr ∈ initial, (w.expression expr).Loops 0)
    (hloop : ∀ item header, (∀ item list, (header item list : Render Unit).Loops 1) →
      (w.loopOver c.receiver item
        (w.arena.parameterUsed c.parameters reduceListPosition c.body) header).Loops k) :
    (w.reduceLoop c initial).Loops k := by
  have hstep : ∀ acc item list, (w.reduceStep c acc item list).Loops 0 :=
    loops_reduceStep hplain hbody
  apply Render.Loops.before .freshTemp
  intro acc
  cases initial with
  -- the test for an empty list and the choice of the first round are branches
  | none =>
    have hguard : ∀ list, (emptyReduceGuard list).Loops 0 :=
      fun list => .guarded _ (.emit (by decide))
    apply Render.Loops.before (loops_loopVariable _)
    intro item
    apply Render.Loops.after (hloop item _ fun item list => (hguard list).before fun _ =>
      .openLoop item list)
    intro list
    apply Render.Loops.before (.choice _ (.assign acc item) (hstep acc item list))
    intro _
    exact Render.Loops.close.before fun _ => .pure acc
  | some initial =>
    apply Render.Loops.before ((hinitial initial rfl).before fun value => .assign acc value)
    intro _
    apply Render.Loops.before (loops_loopVariable _)
    intro item
    apply Render.Loops.after (hloop item _ .openLoop)
    intro list
    apply Render.Loops.before (hstep acc item list)
    intro _
    exact Render.Loops.close.before fun _ => .pure acc

/-- All list operations open the loops of their chain and none of their own. -/
theorem loops_listOperation {operation : ListOperation} {args : List NodeId}
    (hinitial : operation = .reduce → ∀ initial ∈ args[1]?,
      (w.expression (w.arena.argumentExpr initial)).Loops 0)
    (hloop : ∀ item header, (∀ item list, (header item list : Render Unit).Loops 1) →
      (w.loopOver c.receiver item (w.arena.parameterUsed c.parameters operation.listPosition c.body)
        header).Loops k) :
    (w.listOperation operation c args).Loops k := by
  cases operation with
  | map => exact loops_mapLoop hplain hbody fun item => hloop item _ .openLoop
  | forEach => exact loops_forEachLoop hplain hbody fun item => hloop item _ .openLoop
  | filter => exact loops_filterLoop hplain hbody fun item => hloop item _ .openLoop
  | reduce =>
    apply loops_reduceLoop hplain hbody ?_ hloop
    intro expr hm
    obtain ⟨initial, hinit, rfl⟩ := Option.map_eq_some_iff.mp hm
    exact hinitial rfl initial hinit

end

end Walker

/-! ### Chains -/

namespace Arena

variable {a : Arena} {id source : NodeId} {stage c : ListCall} {stages : List ListCall}
  {operation : Walker.ListOperation} {args : List NodeId}

/-- Whether an expression, in parentheses or not, calls a list operation with an inline
callback. -/
structure CallsList (a : Arena) (id : NodeId) (operation : Walker.ListOperation) (c : ListCall)
    (args : List NodeId) : Prop where
  call : ∃ callee name, a.get? (a.unwrapParens id) = some (.call callee args) ∧
    a.get? (a.unwrapParens callee) = some (.member c.receiver name) ∧
    Walker.ListOperation.ofName? name = some operation
  callback : a.callback? args = some (c.parameters, c.body)

/-- Whether an expression is a chain of `map` operations with inline callbacks, outermost
first, over a source that is none. -/
inductive MapChain (a : Arena) : NodeId → List ListCall → NodeId → Prop where
  | source {id : NodeId} (first : a.mapStage? id = none) : MapChain a id [] id
  | stage {id source : NodeId} {stage : ListCall} {stages : List ListCall}
      (call : a.mapStage? id = some stage) (chain : MapChain a stage.receiver stages source) :
      MapChain a id (stage :: stages) source

/-- A stage is a call of `map`. -/
theorem callsList_of_mapStage? (h : a.mapStage? id = some stage) :
    ∃ args, a.CallsList id .map stage args := by
  unfold mapStage? at h
  split at h
  · next callee args hcall =>
    split at h
    · cases h
    · split at h
      · next receiver parameters body hmember hcallback =>
        cases h
        exact ⟨args, ⟨callee, "map", hcall, hmember, rfl⟩, hcallback⟩
      · cases h
  · cases h

/-- What is no mapping is the source of a chain. -/
theorem fusedChainWithin_of_not_stage (h : a.mapStage? id = none) (bound : Nat) :
    a.fusedChainWithin bound id = ([], id) := by
  cases bound with
  | zero => rfl
  | succ bound =>
    rw [fusedChainWithin]
    simp only [h]

/-- A callback that reads the list is not fused: its list has to be there. -/
theorem fusedChainWithin_of_reads (h : a.mapStage? id = some stage)
    (hreads : a.parameterUsed stage.parameters mapListPosition stage.body = true) (bound : Nat) :
    a.fusedChainWithin bound id = ([], id) := by
  cases bound with
  | zero => rfl
  | succ bound =>
    rw [fusedChainWithin]
    simp only [h, hreads, if_true]

/-- A callback that does not is a stage in front of those of its receiver. -/
theorem fusedChainWithin_succ (h : a.mapStage? id = some stage)
    (hreads : a.parameterUsed stage.parameters mapListPosition stage.body = false) (bound : Nat) :
    a.fusedChainWithin (bound + 1) id =
      (stage :: (a.fusedChainWithin bound stage.receiver).1,
        (a.fusedChainWithin bound stage.receiver).2) := by
  rw [fusedChainWithin]
  simp [h, hreads]

/-- Parentheses do not matter to the last stage of a chain. -/
theorem mapStage?_congr {id' : NodeId} (h : a.unwrapParens id = a.unwrapParens id') :
    a.mapStage? id = a.mapStage? id' := by
  unfold mapStage?
  rw [h]

/-- A chain goes on in one way only. -/
theorem MapChain.length_eq {id' source' : NodeId} {stages' : List ListCall}
    (h : a.MapChain id stages source) (h' : a.MapChain id' stages' source')
    (hsame : a.unwrapParens id = a.unwrapParens id') : stages.length = stages'.length := by
  induction h generalizing id' stages' with
  | source first =>
    cases h' with
    | source first' => rfl
    | stage call' chain' =>
      rw [mapStage?_congr hsame, call'] at first
      cases first
  | stage call chain ih =>
    cases h' with
    | source first' =>
      rw [mapStage?_congr hsame, first'] at call
      cases call
    | stage call' chain' =>
      rw [mapStage?_congr hsame, call'] at call
      cases call
      rw [List.length_cons, List.length_cons, ih chain' rfl]

/-- No call occurs twice in a chain: the chain would go on forever. -/
theorem MapChain.exists_calls (h : a.MapChain id stages source) :
    ∃ calls : List NodeId, calls.length = stages.length ∧ calls.Nodup ∧
      ∀ call ∈ calls, call.index < a.size ∧ ∃ id stages', a.unwrapParens id = call ∧
        a.MapChain id stages' source ∧ stages'.length ≤ stages.length := by
  induction h with
  | source first => exact ⟨[], rfl, List.nodup_nil, by simp⟩
  | @stage id source stage stages call chain ih =>
    obtain ⟨calls, hlength, hnodup, hcalls⟩ := ih
    obtain ⟨args, hlist⟩ := callsList_of_mapStage? call
    obtain ⟨callee, name, hget, -, -⟩ := hlist.call
    refine ⟨a.unwrapParens id :: calls, by rw [List.length_cons, hlength, List.length_cons],
      List.nodup_cons.mpr ⟨fun hm => ?_, hnodup⟩, fun inner hm => ?_⟩
    · obtain ⟨-, id', stages', hsame, hchain, hle⟩ := hcalls _ hm
      have hlong := hchain.length_eq (.stage call chain) hsame
      rw [List.length_cons] at hlong
      omega
    · rcases List.mem_cons.mp hm with rfl | hm
      · exact ⟨lt_size_of_get? hget, id, stage :: stages, rfl, .stage call chain, le_rfl⟩
      · obtain ⟨hlt, id', stages', hsame, hchain, hle⟩ := hcalls inner hm
        exact ⟨hlt, id', stages', hsame, hchain, Nat.le_succ_of_le hle⟩

/-- So a chain is no longer than the arena. -/
theorem MapChain.length_le (h : a.MapChain id stages source) : stages.length ≤ a.size := by
  obtain ⟨calls, hlength, hnodup, hcalls⟩ := h.exists_calls
  have hindices : (calls.map NodeId.index).Nodup :=
    hnodup.map fun call call' he => by cases call; cases call'; exact congrArg NodeId.mk he
  have hrange : calls.map NodeId.index ⊆ List.range a.size := by
    intro index hm
    obtain ⟨call, hcall, rfl⟩ := List.mem_map.mp hm
    exact List.mem_range.mpr (hcalls call hcall).1
  have hle := (hindices.subperm hrange).length_le
  rwa [List.length_map, List.length_range, hlength] at hle

end Arena

/-- The number of neighbours in a chain, outermost first, that share no loop because one of
them reads the whole list. -/
def loopBreaks (reads : List Bool) : Nat :=
  (reads.zip reads.tail).countP fun (consumer, stage) => consumer || stage

/-- Whether two neighbours break is told from the two of them. -/
theorem loopBreaks_cons_cons (consumer stage : Bool) (rest : List Bool) :
    loopBreaks (consumer :: stage :: rest) =
      loopBreaks (stage :: rest) + if consumer || stage then 1 else 0 := by
  exact List.countP_cons

/-- Without a reader there is no break. -/
theorem loopBreaks_eq_zero {reads : List Bool} (h : ∀ read ∈ reads, read = false) :
    loopBreaks reads = 0 := by
  apply List.countP_eq_zero.mpr
  rintro ⟨consumer, stage⟩ hm
  obtain ⟨hconsumer, hstage⟩ := List.of_mem_zip hm
  simp [h consumer hconsumer, h stage (List.mem_of_mem_tail hstage)]

namespace Program

variable {p : Program} {dialect : Dialect} {id source : NodeId} {c : ListCall}
  {stages : List ListCall} {operation : Walker.ListOperation} {args : List NodeId} {k : Nat}

/-- Whether the callback of a list operation has plain parameters and a body that opens no
loop when it is rendered by itself. -/
structure PlainCallback (p : Program) (dialect : Dialect) (c : ListCall) : Prop where
  parameters : ∀ parameter ∈ c.parameters, p.arena.isPlainParameter parameter = true
  body : ∀ n, ((p.walkerWithin dialect n).callbackBody c.body).Loops 0

/-- Whether an expression opens no loop when it is rendered by itself. -/
def OpensNoLoop (p : Program) (dialect : Dialect) (expr : NodeId) : Prop :=
  ∀ n, ((p.walkerWithin dialect n).expression expr).Loops 0

/-- The call of a list operation is rendered by its rule, parentheses left out. -/
theorem exists_runOn_listOperation (hp : p.BottomUp) (h : p.arena.CallsList id operation c args)
    {n : Nat} {out final : Output} {text : String}
    (hrun : ((p.walkerWithin dialect n).expression id).runOn out = (.ok text, final)) :
    ∃ m, ((p.walkerWithin dialect m).listOperation operation c args).runOn out =
      (.ok text, final) := by
  induction n generalizing id with
  | zero => exact absurd ⟨out, final, hrun⟩ Render.not_yields_fault
  | succ n ih =>
    obtain ⟨callee, name, hcall, hmember, hname⟩ := h.call
    have hrun : ((p.walkerWithin dialect n).renderExpression id).runOn out =
        (.ok text, final) := hrun
    unfold Walker.renderExpression at hrun
    by_cases hparen : ∃ expr, p.arena.get? id = some (.paren expr)
    · obtain ⟨expr, hn⟩ := hparen
      rw [node_of_get? hn] at hrun
      -- each pair of parentheses takes one level and leaves the call inside
      have hinner : p.arena.CallsList expr operation c args := by
        refine ⟨⟨callee, name, ?_, hmember, hname⟩, h.callback⟩
        rwa [← hp.grown.unwrapParens_of_paren hn]
      exact ih hinner hrun
    · rw [Arena.unwrapParens_of_not_paren fun expr hn => hparen ⟨expr, hn⟩] at hcall
      rw [node_of_get? hcall] at hrun
      have hmember : (p.walkerWithin dialect n).arena.get?
          ((p.walkerWithin dialect n).arena.unwrapParens callee) =
            some (.member c.receiver name) := by
        rw [p.arena_walkerWithin]
        exact hmember
      have hrun := Walker.runOn_method_of_call hmember hrun
      unfold Walker.method at hrun
      rw [hname, p.arena_walkerWithin, h.callback] at hrun
      obtain ⟨_, start, hstart, hrun⟩ := Render.runOn_bind_eq_ok_iff.mp hrun
      cases Walker.eq_of_runOn_requireLoops hstart
      exact ⟨n, hrun⟩

/-- What a list operation opens, if its chain is counted. -/
theorem loops_expression_of_loopOver (hp : p.BottomUp) (h : p.arena.CallsList id operation c args)
    (hc : p.PlainCallback dialect c)
    (hinitial : operation = .reduce → ∀ initial ∈ args[1]?,
      p.OpensNoLoop dialect (p.arena.argumentExpr initial))
    (hloop : ∀ n item header, (∀ item list, (header item list : Render Unit).Loops 1) →
      ((p.walkerWithin dialect n).loopOver c.receiver item
        (p.arena.readsList operation.listPosition c) header).Loops k) (n : Nat) :
    ((p.walkerWithin dialect n).expression id).Loops k := by
  intro out text final hrun
  obtain ⟨m, hrule⟩ := exists_runOn_listOperation hp h hrun
  have harena : (p.walkerWithin dialect m).arena = p.arena := p.arena_walkerWithin dialect m
  have hloops : ((p.walkerWithin dialect m).listOperation operation c args).Loops k := by
    apply Walker.loops_listOperation (by rw [harena]; exact hc.parameters) (hc.body m)
    · intro hreduce initial hm
      rw [harena]
      exact hinitial hreduce initial hm m
    · intro item header hheader
      rw [harena, Arena.parameterUsed_eq_readsList _ hc.parameters]
      exact hloop m item header hheader
  exact hloops out text final hrule

/-- Whether the stages of a chain read the whole list, outermost first. -/
def mapReads (p : Program) (stages : List ListCall) : List Bool :=
  stages.map (p.arena.readsList mapListPosition)

/-- Whether the two ways in which a chain is rendered are counted by its breaks: as a list
of its own, which breaks it from whatever reads the list, and as the stages of a loop. -/
def CountsChain (p : Program) (dialect : Dialect) (id : NodeId) (stages : List ListCall) : Prop :=
  (∀ n, ((p.walkerWithin dialect n).expression id).Loops
    (loopBreaks (true :: p.mapReads stages))) ∧
  ∀ n bound item header, stages.length ≤ bound →
    (∀ item list, (header item list : Render Unit).Loops 1) →
    ((p.walkerWithin dialect n).renderStages (p.arena.fusedChainWithin bound id).2 header
      (p.arena.fusedChainWithin bound id).1 item).Loops
        (loopBreaks (false :: p.mapReads stages) + 1)

/-- The loop of a consumer is one loop, and one for each break between the consumer and the
source. -/
theorem loops_loopOver (hchain : p.arena.MapChain id stages source)
    (hcounts : p.CountsChain dialect id stages) {header : String → String → Render Unit}
    (hheader : ∀ item list, (header item list).Loops 1) (n : Nat) (item : String)
    (readsList : Bool) :
    ((p.walkerWithin dialect n).loopOver id item readsList header).Loops
      (loopBreaks (readsList :: p.mapReads stages) + 1) := by
  unfold Walker.loopOver Arena.fusedChain
  rw [p.arena_walkerWithin]
  cases readsList with
  | true => exact Walker.loops_renderStages_nil (hcounts.1 n) hheader item
  | false =>
    exact hcounts.2 n p.arena.size item header hchain.length_le hheader

/-- Chains are counted by their breaks, by induction on the chain. -/
theorem countsChain (hp : p.BottomUp) (hchain : p.arena.MapChain id stages source)
    (hstages : ∀ stage ∈ stages, p.PlainCallback dialect stage)
    (hsource : p.OpensNoLoop dialect source) : p.CountsChain dialect id stages := by
  induction hchain with
  | source first =>
    refine ⟨hsource, fun n bound item header _ hheader => ?_⟩
    rw [Arena.fusedChainWithin_of_not_stage first]
    exact Walker.loops_renderStages_nil (hsource n) hheader item
  | @stage id source stage stages call chain ih =>
    have hinner : p.CountsChain dialect stage.receiver stages :=
      ih (fun inner hm => hstages inner (List.mem_cons_of_mem _ hm)) hsource
    have hstage : p.PlainCallback dialect stage := hstages stage List.mem_cons_self
    have hused := Arena.parameterUsed_eq_readsList mapListPosition hstage.parameters
    obtain ⟨args, hcalls⟩ := Arena.callsList_of_mapStage? call
    -- the stage by itself, as a list that another loop is over
    have hown : ∀ n, ((p.walkerWithin dialect n).expression id).Loops
        (loopBreaks (true :: p.mapReads (stage :: stages))) := by
      have hbreaks : loopBreaks (true :: p.mapReads (stage :: stages)) =
          loopBreaks (p.mapReads (stage :: stages)) + 1 := loopBreaks_cons_cons _ _ _
      rw [hbreaks]
      apply loops_expression_of_loopOver hp hcalls hstage (fun h => by cases h)
      intro n item header hheader
      exact loops_loopOver chain hinner hheader n item _
    refine ⟨hown, fun n bound item header hbound hheader => ?_⟩
    rw [List.length_cons] at hbound
    obtain ⟨bound, rfl⟩ := Nat.exists_eq_succ_of_ne_zero (n := bound) (by omega)
    have harena : (p.walkerWithin dialect n).arena = p.arena := p.arena_walkerWithin dialect n
    cases hreads : p.arena.readsList mapListPosition stage with
    | true =>
      -- the stage is a list of its own, and the loop is over that list
      have hbreaks : loopBreaks (true :: p.mapReads (stage :: stages)) =
          loopBreaks (false :: p.mapReads (stage :: stages)) := by
        simp only [mapReads, List.map_cons, loopBreaks_cons_cons, hreads, Bool.or_true]
      rw [Arena.fusedChainWithin_of_reads call (hused.trans hreads), ← hbreaks]
      exact Walker.loops_renderStages_nil (hown n) hheader item
    | false =>
      have hbreaks : loopBreaks (false :: p.mapReads (stage :: stages)) =
          loopBreaks (false :: p.mapReads stages) := by
        simp [mapReads, loopBreaks_cons_cons, hreads]
      rw [Arena.fusedChainWithin_succ call (hused.trans hreads), hbreaks]
      apply Walker.loops_renderStages_cons (by rw [harena]; exact hstage.parameters)
        (hstage.body n)
      intro stageItem
      exact hinner.2 n bound stageItem header (by omega) hheader

end Program

/-- A chain of list operations with inline callbacks is rendered to one loop, and one more
for each two neighbours of which one reads the whole list; so a chain that never reads it
takes a single loop.  The parameters of the callbacks are plain names, and the source, the
bodies of the callbacks and the initial value of a reduction open no loop when they are
rendered by themselves. -/
theorem loopHeaders_of_chain {p : Program} (hp : p.BottomUp) {dialect : Dialect}
    {expr source : NodeId} {operation : Walker.ListOperation} {c : ListCall}
    {args : List NodeId} {stages : List ListCall}
    (hcall : p.arena.CallsList expr operation c args)
    (hchain : p.arena.MapChain c.receiver stages source)
    (hcallbacks : ∀ stage ∈ c :: stages, p.PlainCallback dialect stage)
    (hsource : p.OpensNoLoop dialect source)
    (hinitial : operation = .reduce → ∀ initial ∈ args[1]?,
      p.OpensNoLoop dialect (p.arena.argumentExpr initial))
    {n : Nat} {out final : Output} {text : String}
    (h : ((p.walkerWithin dialect n).expression expr).runOn out = (.ok text, final)) :
    ∃ lines, final.lines.toList = out.lines.toList ++ lines ∧
      loopHeaders lines =
        1 + loopBreaks (p.arena.readsList operation.listPosition c :: p.mapReads stages) ∧
      ((∀ reads ∈ p.arena.readsList operation.listPosition c :: p.mapReads stages,
        reads = false) → loopHeaders lines = 1) := by
  have hconsumer : p.PlainCallback dialect c := hcallbacks c List.mem_cons_self
  have hcounts : p.CountsChain dialect c.receiver stages :=
    Program.countsChain hp hchain
      (fun stage hm => hcallbacks stage (List.mem_cons_of_mem _ hm)) hsource
  have hloops := Program.loops_expression_of_loopOver hp hcall hconsumer hinitial
    (fun n item header hheader => Program.loops_loopOver hchain hcounts hheader n item _) n
  obtain ⟨lines, hlines, hcount⟩ := hloops out text final h
  refine ⟨lines, hlines, by rw [hcount, Nat.add_comm], fun hnone => ?_⟩
  rw [hcount, loopBreaks_eq_zero hnone]

/-! ### A chain with two breaks -/

namespace Program

variable {p : Program} {dialect : Dialect} {id : NodeId}

/-- An access to a property is inline if what it accesses is. -/
theorem Inline.member {base : NodeId} {name : String}
    (hn : p.arena.get? id = some (.member base name)) (hbase : p.Inline dialect base) :
    p.Inline dialect id := by
  intro n out text final hrun
  cases n with
  | zero => exact absurd ⟨out, final, hrun⟩ Render.not_yields_fault
  | succ n =>
    have hrun : ((p.walkerWithin dialect n).renderExpression id).runOn out =
        (.ok text, final) := hrun
    unfold Walker.renderExpression at hrun
    rw [node_of_get? hn] at hrun
    have hrun : (do
        let text ← (p.walkerWithin dialect n).expression base
        return s!"{text}.{name}").runOn out = (.ok text, final) := hrun
    obtain ⟨value, middle, hvalue, hdone⟩ := Render.runOn_bind_eq_ok_iff.mp hrun
    cases hdone
    exact hbase n out value _ hvalue

/-- What is inline opens no loop. -/
theorem Inline.opensNoLoop (h : p.Inline dialect id) : p.OpensNoLoop dialect id := by
  intro n out text final hrun
  rw [h n out text final hrun]
  exact ⟨[], (List.append_nil _).symm, rfl⟩

/-- A callback with plain parameters whose body is a name opens no loop. -/
theorem PlainCallback.of_identifier {c : ListCall} {name : String}
    (hplain : c.parameters.all p.arena.isPlainParameter = true)
    (hbody : p.arena.get? c.body = some (.identifier name)) : p.PlainCallback dialect c := by
  refine ⟨List.all_eq_true.mp hplain, fun n => ?_⟩
  unfold Walker.callbackBody
  rw [node_of_get? hbody]
  exact ((Inline.identifier hbody).opensNoLoop n).before fun value => .materialize value

/-- The closure `input => { return input.items.map(x => x).map((y, i, all) => all).forEach(z
=> z); }`, in which the second of three callbacks reads the whole list. -/
def chain : Program :=
  (Builder.of []
    [.identifier "x", .parameter ⟨0⟩ none, .identifier "x", .function [⟨1⟩] ⟨2⟩,
      .identifier "input", .member ⟨4⟩ "items", .member ⟨5⟩ "map", .argument ⟨3⟩ none,
      .call ⟨6⟩ [⟨7⟩],
      .identifier "y", .parameter ⟨9⟩ none, .identifier "i", .parameter ⟨11⟩ none,
      .identifier "all", .parameter ⟨13⟩ none, .identifier "all",
      .function [⟨10⟩, ⟨12⟩, ⟨14⟩] ⟨15⟩, .member ⟨8⟩ "map", .argument ⟨16⟩ none,
      .call ⟨17⟩ [⟨18⟩],
      .identifier "z", .parameter ⟨20⟩ none, .identifier "z", .function [⟨21⟩] ⟨22⟩,
      .member ⟨19⟩ "forEach", .argument ⟨23⟩ none, .call ⟨24⟩ [⟨25⟩],
      .returnValue (some ⟨26⟩), .block [⟨27⟩], .identifier "input", .parameter ⟨29⟩ none,
      .function [⟨30⟩] ⟨28⟩]).program

/-- The nodes are listed with their parts first. -/
theorem bottomUp_chain : chain.BottomUp :=
  Builder.bottomUp_of (by decide) (by cbv)

/-- The chain has two stages below the consumer, and its source is the list of the input. -/
theorem mapChain_chain :
    chain.arena.MapChain ⟨19⟩ [⟨⟨8⟩, [⟨10⟩, ⟨12⟩, ⟨14⟩], ⟨15⟩⟩, ⟨⟨5⟩, [⟨1⟩], ⟨2⟩⟩] ⟨5⟩ := by
  have houter : chain.arena.mapStage? ⟨19⟩ = some ⟨⟨8⟩, [⟨10⟩, ⟨12⟩, ⟨14⟩], ⟨15⟩⟩ := by cbv
  have hinner : chain.arena.mapStage? ⟨8⟩ = some ⟨⟨5⟩, [⟨1⟩], ⟨2⟩⟩ := by cbv
  have hsource : chain.arena.mapStage? ⟨5⟩ = none := by cbv
  exact .stage houter (.stage hinner (.source hsource))

/-- All three callbacks return one of their parameters. -/
theorem plainCallback_chain (dialect : Dialect) :
    ∀ c ∈ [⟨⟨19⟩, [⟨21⟩], ⟨22⟩⟩, ⟨⟨8⟩, [⟨10⟩, ⟨12⟩, ⟨14⟩], ⟨15⟩⟩, ⟨⟨5⟩, [⟨1⟩], ⟨2⟩⟩],
      chain.PlainCallback dialect c := by
  have hthird : chain.PlainCallback dialect ⟨⟨19⟩, [⟨21⟩], ⟨22⟩⟩ :=
    .of_identifier (by cbv) (by cbv)
  have hsecond : chain.PlainCallback dialect ⟨⟨8⟩, [⟨10⟩, ⟨12⟩, ⟨14⟩], ⟨15⟩⟩ :=
    .of_identifier (by cbv) (by cbv)
  have hfirst : chain.PlainCallback dialect ⟨⟨5⟩, [⟨1⟩], ⟨2⟩⟩ :=
    .of_identifier (by cbv) (by cbv)
  simpa using ⟨hthird, hsecond, hfirst⟩

end Program

/-- The list that the second callback reads is built by a loop of its own, and so is the
list that the third callback takes its items from. -/
theorem loopHeaders_of_chain_chain :
    ∃ final, ((Program.chain.walkerWithin (.resolver {}) 8).expression ⟨26⟩).runOn {} =
        (.ok "$null", final) ∧ loopHeaders final.lines.toList = 3 := by
  have hcall : Program.chain.arena.CallsList ⟨26⟩ .forEach ⟨⟨19⟩, [⟨21⟩], ⟨22⟩⟩ [⟨25⟩] :=
    ⟨⟨⟨24⟩, "forEach", by cbv, by cbv, rfl⟩, by cbv⟩
  have hitems : Program.chain.arena.get? ⟨5⟩ = some (.member ⟨4⟩ "items") := by cbv
  have hinput : Program.chain.arena.get? ⟨4⟩ = some (.identifier "input") := by cbv
  have hsource : Program.chain.OpensNoLoop (.resolver {}) ⟨5⟩ :=
    (Program.Inline.member hitems (.identifier hinput)).opensNoLoop
  have hbreaks : 1 + loopBreaks
      (Program.chain.arena.readsList Walker.ListOperation.forEach.listPosition
          ⟨⟨19⟩, [⟨21⟩], ⟨22⟩⟩ ::
        Program.chain.mapReads [⟨⟨8⟩, [⟨10⟩, ⟨12⟩, ⟨14⟩], ⟨15⟩⟩, ⟨⟨5⟩, [⟨1⟩], ⟨2⟩⟩]) = 3 := by
    decide +kernel
  have hvalue :
      (((Program.chain.walkerWithin (.resolver {}) 8).expression ⟨26⟩).runOn {}).1.toOption =
        some "$null" := by
    decide +kernel
  rcases hrun : ((Program.chain.walkerWithin (.resolver {}) 8).expression ⟨26⟩).runOn {} with
    ⟨fault | text, final⟩
  · rw [hrun] at hvalue
    cases hvalue
  · rw [hrun] at hvalue
    cases hvalue
    obtain ⟨lines, hlines, hcount, -⟩ :=
      loopHeaders_of_chain Program.bottomUp_chain hcall Program.mapChain_chain
        (Program.plainCallback_chain _) hsource (fun h => by cases h) hrun
    have hall : final.lines.toList = lines := hlines
    exact ⟨final, rfl, hall ▸ hcount.trans hbreaks⟩

end ClosureVtl
