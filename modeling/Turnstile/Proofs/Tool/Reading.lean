import Turnstile.Hat.Tools
import Turnstile.Proofs.Json.Record
import Turnstile.Proofs.Run.Entry
import Turnstile.Proofs.Tool.Catalogue

/-!
This module contains how requests are read. What the schema of requests accepts can be read as calls of tools
in the catalogue, so that the action which makes the calls never has to turn such a message away.
-/

namespace Turnstile

open Document

namespace Json

variable {d value : Json}

theorem normalize_of_get? (h : d.normalize = d) (hv : d.get? key = some value) : value.normalize = value := by
  rcases Schema.Members.exists_member hv with ⟨members, hd, hm⟩
  subst hd
  exact normalize_of_mem_object h _ hm

end Json

theorem Fields.read_single_of_lookup {names : List String} {members : List (String × Json)} {value : Json}
    {α : Type} {absent : Except Fault α} {present : Written → Except Fault α} {x : α}
    (hf : (Given.ofMembers names 0 [] (Json.writtenMembers members)).fault? = none) (hn : name ∈ names)
    (hv : members.lookup name = some value) (hp : present value.written = .ok x) :
    (single name absent present).read (Given.ofMembers names 0 [] (Json.writtenMembers members)) = .ok x := by
  have hl := Given.lookup_ofMembers names members 0 [] hf hn
  rw [hv] at hl
  exact read_single_of_some hl hp

namespace ToolCall

variable {c : ToolCall} {d : Json} {members : List (String × Json)} {items : List Json}

def normalize (c : ToolCall) : ToolCall :=
  { c with arguments := c.arguments.normalize }

/-- The document gives the name and the arguments of the call. -/
structure Gives (d : Json) (c : ToolCall) : Prop where
  name : d.get? "name" = some (.string c.name)
  arguments : d.get? "arguments" = some c.arguments

/-- Other members than those of a call are passed over. -/
theorem ofJson_object (hk : (members.map Prod.fst).Nodup) (h : Gives (.object members) c) :
    ofJson (Json.object members) = .ok c.normalize := by
  have hf : (Given.ofMembers ["name", "arguments"] 0 [] (Json.writtenMembers members)).fault? = none := by
    rw [Given.fault?_ofMembers_eq_none_iff]
    exact ⟨hk.filter _, by simp⟩
  apply Fields.decode_object_eq_ok_iff.mpr
  refine ⟨?_, hf⟩
  rw [Fields.read_seq_eq_ok_iff]
  refine ⟨mk c.name, c.arguments.normalize, ?_, ?_, rfl⟩
  . rw [Fields.read_map_eq_ok_iff]
    exact ⟨c.name, Fields.read_single_of_lookup hf (.head _) h.name rfl, rfl⟩
  . exact Fields.read_single_of_lookup hf (.tail _ (.head _)) h.arguments (ofJson_json c.arguments)

theorem Gives.ofJson (hd : d.normalize = d) (h : Gives d c) : ofJson d = .ok c := by
  rcases Schema.Members.exists_member h.name with ⟨members, hm, _⟩
  subst hm
  rw [ofJson_object (Json.sorted_of_normalize hd).nodup h]
  unfold normalize
  rw [Json.normalize_of_get? hd h.arguments]

theorem ofJson_encode (c : ToolCall) : ofJson (encode c) = .ok c.normalize := by
  apply ofJson_object _ ⟨rfl, rfl⟩
  show ["name", "arguments"].Nodup
  decide

theorem ofJson_normalize_encode (c : ToolCall) : ofJson (encode c).normalize = .ok c.normalize := by
  have hg : Gives (encode c).normalize c.normalize := ⟨rfl, rfl⟩
  exact hg.ofJson (Json.normalize_normalize _)

/-- A list is read as a call only if it begins with the name. -/
theorem exists_of_ofJson_list (h : ofJson (Json.list items) = .ok c) :
    ∃ rest, items = .string c.name :: rest := by
  rcases Fields.decode_list_eq_ok_iff.mp h with ⟨hr, _⟩
  rcases Fields.read_seq_eq_ok_iff.mp hr with ⟨f, arguments, hf, _, hc⟩
  rcases Fields.read_map_eq_ok_iff.mp hf with ⟨name, hn, hm⟩
  subst hm hc
  rcases Fields.of_read_single hn with ⟨position, written, hl, hw⟩ | ⟨_, ha⟩
  . cases items with
    | nil => cases hl
    | cons first rest =>
      cases hl
      refine ⟨rest, ?_⟩
      cases first with
      | string text =>
        cases hw
        rfl
      | _ => cases hw
  . cases ha

end ToolCall

namespace ToolCalls

variable {calls : List ToolCall} {items : List Json} {c : ToolCall} {d : Json}

def normalize : ToolCalls → ToolCalls
  | one call => one call.normalize
  | many calls => many (calls.map ToolCall.normalize)

def all : ToolCalls → List ToolCall
  | one call => [call]
  | many calls => calls

theorem normalize_eq_self {calls : ToolCalls} (h : ∀ c ∈ calls.all, c.arguments.normalize = c.arguments) :
    calls.normalize = calls := by
  have hc : ∀ c ∈ calls.all, c.normalize = c := by
    intro c hc
    unfold ToolCall.normalize
    rw [h c hc]
  cases calls with
  | one call => exact congrArg one (hc call (.head _))
  | many calls => exact congrArg many ((List.map_congr_left hc).trans (List.map_id calls))

/-- The document is tried as a single call before it is read as a list. -/
theorem ofJson_eq (d : Json) : (ofJson d : Except Fault ToolCalls) =
    match (ofJson d : Except Fault ToolCall) with
    | .ok call => .ok (one call)
    | .error _ => many <$> ofJson d := by
  show (require d.written.json? >>= fun value =>
    match (ofJson value : Except Fault ToolCall) with
    | .ok call => Except.ok (one call)
    | .error _ => many <$> ofJson value) = _
  rw [Json.json?_written]
  rfl

theorem ofJson_one (h : ofJson d = .ok c) : ofJson d = .ok (one c) := by
  rw [ofJson_eq, h]

/-- No list of calls can be mistaken for a call, since a call is not a name. -/
theorem ofJson_many (h : List.Forall₂ (fun item c => item.isObject ∧ ofJson item = .ok c) items calls) :
    ofJson (Json.list items) = .ok (many calls) := by
  have hl : ofJson (Json.list items) = .ok calls := by
    show (Json.writtenItems items).mapM decode = _
    rw [mapM_eq_ok_iff, Json.writtenItems_eq_map, List.forall₂_map_left_iff]
    exact h.imp fun item c hc => hc.2
  rw [ofJson_eq]
  cases hc : (ofJson (Json.list items) : Except Fault ToolCall) with
  | ok c =>
    rcases ToolCall.exists_of_ofJson_list hc with ⟨rest, he⟩
    subst he
    cases h with
    | cons hf _ => cases hf.1
  | error fault =>
    dsimp only
    rw [hl]
    rfl

theorem ofJson_encode (calls : ToolCalls) : ofJson (encode calls) = .ok calls.normalize := by
  cases calls with
  | one call => exact ofJson_one (ToolCall.ofJson_encode call)
  | many calls =>
    apply ofJson_many
    rw [List.forall₂_map_left_iff, List.forall₂_map_right_iff]
    apply List.forall₂_same.mpr
    intro call _
    exact ⟨rfl, ToolCall.ofJson_encode call⟩

theorem ofJson_normalize_encode (calls : ToolCalls) :
    ofJson (encode calls).normalize = .ok calls.normalize := by
  cases calls with
  | one call => exact ofJson_one (ToolCall.ofJson_normalize_encode call)
  | many calls =>
    have hn : (encode (many calls)).normalize = .list (calls.map fun c => (encode c).normalize) := by
      show Json.list (Json.normalizeList (calls.map encode)) = _
      rw [Json.normalizeList_eq_map, List.map_map]
      rfl
    rw [hn]
    apply ofJson_many
    rw [List.forall₂_map_left_iff, List.forall₂_map_right_iff]
    apply List.forall₂_same.mpr
    intro call _
    exact ⟨rfl, ToolCall.ofJson_normalize_encode call⟩

end ToolCalls

namespace Tool

variable {tools : List Tool} {defs : Definitions} {d x : Json} {c : ToolCall} {items : List Json}
  {refer : String → Except String Subschema}

/-- The document is a call of a tool in the catalogue. -/
structure Listed (tools : List Tool) (d : Json) (c : ToolCall) : Prop where
  gives : c.Gives d
  listed : ∃ t ∈ tools, t.name = c.name

theorem exists_listed (h : ExactlyOne (Takes defs refer · x) tools) : ∃ c, Listed tools x c := by
  rcases h with ⟨n, ⟨t, ht, hn, _, value, _, hv, _⟩, _⟩
  exact ⟨⟨t.name, value⟩, ⟨hn, hv⟩, t, List.mem_of_getElem? ht, rfl⟩

theorem Listed.isObject (h : Listed tools x c) : x.isObject := by
  rcases Schema.Members.exists_member h.gives.name with ⟨members, hx, _⟩
  subst hx
  rfl

/--
The document is read as the calls that it makes: an object as one call, a list as as many calls in the same
order. All are calls of tools in the catalogue.
-/
inductive ReadAs (tools : List Tool) : Json → ToolCalls → Prop where
  | one {members : List (String × Json)} {c : ToolCall} (hr : ofJson (Json.object members) = .ok (ToolCalls.one c))
    (hc : Listed tools (.object members) c) : ReadAs tools (.object members) (.one c)
  | many {items : List Json} {calls : List ToolCall}
    (hr : ofJson (Json.list items) = .ok (ToolCalls.many calls))
    (hc : List.Forall₂ (Listed tools) items calls) : ReadAs tools (.list items) (.many calls)

theorem ReadAs.ofJson {calls : ToolCalls} (h : ReadAs tools d calls) : ofJson d = .ok calls := by
  cases h with
  | one hr | many hr => exact hr

theorem Listed.ofJson (hx : x.normalize = x) (h : Listed tools x c) : x.isObject ∧ ofJson x = .ok c :=
  ⟨h.isObject, h.gives.ofJson hx⟩

theorem exists_forall₂_listed (h : ∀ item ∈ items, item.normalize = item ∧ ∃ c, Listed tools item c) :
    ∃ calls, List.Forall₂ (Listed tools) items calls := by
  have hm : ∃ calls, items.mapM (Document.ofJson (α := ToolCall)) = .ok calls := by
    rw [exists_mapM_iff]
    intro item hi
    rcases h item hi with ⟨hn, c, hc⟩
    exact ⟨c, (hc.ofJson hn).2⟩
  rcases hm with ⟨calls, hm⟩
  refine ⟨calls, ?_⟩
  have hboth := (List.forall₂_and_left _ _).mpr ⟨h, mapM_eq_ok_iff.mp hm⟩
  apply hboth.imp
  intro item c ⟨⟨hn, other, ho⟩, hc⟩
  cases (ho.ofJson hn).2.symm.trans hc
  exact ho

theorem exists_readAs (hd : d.normalize = d) (hv : validate d (requestSchema tools) defs = .ok .valid) :
    ∃ calls, ReadAs tools d calls := by
  rcases (requestable_of_validate hv).verdict with ⟨refer, hr⟩
  rcases hr d with ⟨v, hw, hone⟩
  cases hv.symm.trans hw
  rcases hone.mp rfl with h | ⟨items, hi, _, h⟩
  . rcases exists_listed h with ⟨c, hc⟩
    rcases Schema.Members.exists_member hc.gives.name with ⟨members, hm, _⟩
    subst hm
    exact ⟨.one c, .one (ToolCalls.ofJson_one (hc.gives.ofJson hd)) hc⟩
  . subst hi
    have hn := Json.normalize_of_mem_list hd
    rcases exists_forall₂_listed fun item hm => ⟨hn item hm, exists_listed (h item hm)⟩ with ⟨calls, hc⟩
    refine ⟨.many calls, .many (ToolCalls.ofJson_many ?_) hc⟩
    apply ((List.forall₂_and_left _ _).mpr ⟨hn, hc⟩).imp
    intro item c ⟨hn, hc⟩
    exact hc.ofJson hn

end Tool

/-! ## Actions that make calls -/

section

variable {E : Extension} {σ : Type}

/-- The action turns away the message that it was invoked with. -/
def Course.TurnsAway (course : Course E) : Prop :=
  ∃ action reason, course.ending = .returned (.error (.badInput action reason))

variable [HasPool σ] {conduct : Conduct E σ} {machine : Machine} {context : Context E} {message : Json}

theorem Tools.not_turnsAway_act {calls : ToolCalls} (h : ofJson message = .ok calls) (state : StateId)
    (context : Context E) (world : σ) : ¬ (act state context message world).1.TurnsAway := by
  intro ⟨action, reason, he⟩
  unfold act at he
  rw [h] at he
  dsimp only at he
  split at he
  . cases he
  . next heq =>
    cases heq
  . next heq =>
    cases heq
    split at he
    . next error _ => cases error <;> cases he
    . cases he

/-- The transition that the event names is for requests to the tools of a session. -/
def Hearing.Asks (conduct : Conduct E σ) (machine : Machine) (x : Hearing E) : Prop :=
  ∃ world t key session, x.provide = conduct.surroundings.provide world
    ∧ machine.transition? x.work.event.edge = some t
    ∧ t.schema = .provided key
    ∧ x.loop.context.provider? key = some (.catalogue session .request)

theorem Tools.exists_of_provide {pool : Pool} {schema : Json}
    (h : provide pool context session .request = .ok schema) : ∃ tools, schema = Tool.requestSchema tools := by
  unfold provide at h
  split at h
  . cases h
  . cases h
    exact ⟨_, rfl⟩

theorem Hearing.Asks.exists_valid {x : Hearing E} (h : x.Asks conduct machine) (hv : x.Valid machine) :
    ∃ tools, validate x.work.event.message (Tool.requestSchema tools) machine.definitions = .ok .valid := by
  rcases h with ⟨world, t, key, session, hprovide, ht, hkey, hprovider⟩
  rcases hv with ⟨u, schema, hu, hdemands, hvalid⟩
  cases ht.symm.trans hu
  cases hdemands with
  | fixed hs =>
    rw [hkey] at hs
    cases hs
  | provided hk hp hs =>
    cases hkey.symm.trans hk
    cases hprovider.symm.trans hp
    rw [hprovide] at hs
    rcases Tools.exists_of_provide hs with ⟨tools, he⟩
    subst he
    exact ⟨tools, hvalid⟩

/-- What a state was entered for was found valid, also if its action is invoked once more. -/
theorem Chronicle.valid_of_visit {seed : Trail} {config : RunConfig} {l : Loop E}
    (h : Loop.start machine context seed config = .ok l) (moves : List (Move E)) {v : Visit E} {x : Hearing E}
    (hv : v ∈ ((begin l).playAll moves).visits) (hx : ((begin l).playAll moves).heard[v.entering]? = some x) :
    v.invocation.event = x.work.event ∧ x.Valid machine := by
  rcases (guarded_playAll h moves).entered v hv with ⟨_, y, hy, haccepted, hevent, _⟩
  cases hx.symm.trans hy
  exact ⟨hevent, ((kept_playAll h moves).verdict_iff hx).mp haccepted⟩

/--
Every message that the schema of requests accepts is read as calls of tools in the catalogue, with the names
and arguments that the message gives. So an action that makes calls never turns a message away that has come
through a transition for requests. What is encoded as calls is read as the same calls, one call as one call and
a list as a list, whether or not the members have been sorted in between.
-/
theorem Tools.requests_understood (conduct : Conduct E σ) :
    (∀ (tools : List Tool) (defs : Definitions) (d : Json), d.normalize = d →
      validate d (Tool.requestSchema tools) defs = .ok .valid → ∃ calls, Tool.ReadAs tools d calls)
    ∧ (∀ (machine : Machine) (context : Context E) (seed : Trail) (config : RunConfig) (l : Loop E),
        Loop.start machine context seed config = .ok l → ∀ moves : List (Move E),
        let c := (Chronicle.begin l).playAll moves
        ∀ v ∈ c.visits, ∀ x, c.heard[v.entering]? = some x → x.Asks conduct machine →
          v.invocation.event.message.normalize = v.invocation.event.message →
          ∀ state, v.invocation.action = .tool state → ∀ world,
            ¬ (conduct.surroundings.act v.loop v.invocation world).1.TurnsAway)
    ∧ (∀ calls : ToolCalls, (∀ c ∈ calls.all, c.arguments.normalize = c.arguments) →
        ofJson (encode calls) = .ok calls ∧ ofJson (encode calls).normalize = .ok calls) := by
  refine ⟨?_, ?_, ?_⟩
  . intro tools defs d hd hvalid
    exact Tool.exists_readAs hd hvalid
  . intro machine context seed config l hstart moves c v hv x hx hasks hnormal state haction world
    rcases Chronicle.valid_of_visit hstart moves hv hx with ⟨hevent, hvalid⟩
    rcases hasks.exists_valid hvalid with ⟨tools, hvalid⟩
    rw [← hevent] at hvalid
    rcases Tool.exists_readAs hnormal hvalid with ⟨calls, hcalls⟩
    unfold Conduct.surroundings
    dsimp only
    rw [haction]
    exact Tools.not_turnsAway_act hcalls.ofJson state v.loop.context world
  . intro calls hc
    have hcalls := ToolCalls.normalize_eq_self hc
    constructor
    . rw [ToolCalls.ofJson_encode, hcalls]
    . rw [ToolCalls.ofJson_normalize_encode, hcalls]

end

namespace Tools.Sample

def worker : StateId := ⟨"worker"⟩

/-- A bridge to a server that has only one tool. -/
def bridge : Bridge :=
  ⟨⟨⟨0⟩⟩, .standard, .start (.scripted (Scripted.launch [])) [], ⟨"", .null, default, none⟩,
    [Tool.Sample.ping], false⟩

def pool : Pool :=
  ⟨.practice, [bridge]⟩

def conduct : Conduct Turnstile.Sample.extension Pool :=
  ⟨fun _ _ _ pool => (⟨[], .zero, .crashed⟩, pool), fun _ _ _ => .error ⟨"no schema"⟩,
    fun _ pool => (⟨.zero, .completed⟩, pool)⟩

def context : Context Turnstile.Sample.extension :=
  extend (keep {} worker ⟨0⟩) worker

def machine : Machine :=
  (Machine.new "tools" "1").addState { State.new (stateOf worker) with action := some (stateOf worker).name }
    |>.addTransition { Transition.new .start (stateOf worker) with schema := .provided (requestKey worker) }
    |>.addTransition (.new (stateOf worker) .final)

def loop : Loop Turnstile.Sample.extension :=
  ⟨machine, 3, context, [], [], .waiting⟩

def asking : Event :=
  .new ⟨.start, stateOf worker⟩ Tool.Sample.pinging

def moves : List (Move Turnstile.Sample.extension) :=
  [.arrive asking, .take (conduct.surroundings.provide pool)]

def chronicle : Chronicle Turnstile.Sample.extension :=
  (Chronicle.begin loop).playAll moves

end Tools.Sample

theorem Tools.requests_understood_pinging :
    Loop.start Sample.machine Sample.context [] .standard = .ok Sample.loop
    ∧ (∃ calls, Tool.ReadAs [Tool.Sample.ping] Tool.Sample.pinging calls)
    ∧ ∃ v ∈ Sample.chronicle.visits, v.invocation.action = .tool Sample.worker
      ∧ ¬ (Sample.conduct.surroundings.act v.loop v.invocation Sample.pool).1.TurnsAway := by
  have hstart : Loop.start Sample.machine Sample.context [] .standard = .ok Sample.loop := rfl
  rcases requests_understood Sample.conduct with ⟨hread, hrun, _⟩
  refine ⟨hstart, hread _ {} _ rfl rfl, ?_⟩
  have hrun := hrun _ _ _ _ _ hstart Sample.moves
  refine ⟨_, .head _, rfl, hrun _ (.head _) _ rfl ?_ rfl Sample.worker rfl Sample.pool⟩
  exact ⟨Sample.pool, _, _, _, rfl, rfl, rfl, rfl⟩

end Turnstile
