import Switchboard.Proofs.Network.Harmony

/-!
# Calls and handlers

In every run of a network, a call causes one invocation of a handler at most, on a client that was
in the cluster when the request was routed, and with the payload that the caller sent. Where a call
returns an answer, it has caused an invocation, and the answer is what that invocation returned. No
invocation is caused by two calls (`Network.correlated`).
-/

namespace Switchboard

/-- Whether a call causes an invocation: the request of the call has been routed to a client, and
there a handler has been invoked for it. -/
def Causes (log : List Event) (caller : LinkId) (key : CallKey) (target : LinkId)
    (service : Service) :
    Prop :=
  ∃ id cluster payload cluster' payload' crew,
    [.called caller key id cluster payload,
      .routed caller id cluster' payload' service.id target crew,
      .invoked target service].Sublist log

/-- Calls and invocations of handlers belong together. -/
structure Correlated (log : List Event) : Prop where
  /-- Calls, invocations, completions and results are named, and nothing is named twice. -/
  distinct : (marks log).Nodup
  /-- Every invocation is caused by a call, on a client of the cluster that was called, and with the
  payload that was sent. -/
  caused : ∀ target service, .invoked target service ∈ log → ∃ caller key id cluster crew,
    [.called caller key id cluster service.payload,
      .routed caller id cluster service.payload service.id target crew,
      .invoked target service].Sublist log ∧ target ∈ crew
  /-- A call causes one invocation at most. -/
  once : ∀ caller key target service target' service', Causes log caller key target service →
    Causes log caller key target' service' → target = target' ∧ service = service'
  /-- An invocation is caused by one call only. -/
  own : ∀ caller key caller' key' target service, Causes log caller key target service →
    Causes log caller' key' target service → caller = caller' ∧ key = key'
  /-- A call that returns an answer has caused an invocation, and the answer is what that has
  returned. -/
  answered : ∀ caller key payload, .returned caller key (.ok payload) ∈ log →
    ∃ target service, Causes log caller key target service ∧
      [.invoked target service, .completed target service (.answered payload),
        .returned caller key (.ok payload)].Sublist log

section Causes

variable {log : List Event} {caller caller' : LinkId} {key key' : CallKey} {target target' : LinkId}
  {service service' : Service}

/-- What has been served has been caused by the call. -/
theorem Errand.Served.causes {errand : Errand} {name : Nat} (h : errand.Served log name) :
    Causes log errand.caller errand.key errand.target (errand.service name) :=
  ⟨errand.id, errand.cluster, errand.payload, errand.cluster, errand.payload, errand.crew, h.1⟩

/-- A call has one number, its request is routed once, and a handler is invoked once for a request
that has been routed. -/
theorem Coherent.once (hlog : Coherent log) (h : Causes log caller key target service)
    (h' : Causes log caller key target' service') : target = target' ∧ service = service' := by
  obtain ⟨id, cluster, payload, forwarded, content, crew, hsub⟩ := h
  obtain ⟨id', cluster', payload', forwarded', content', crew', hsub'⟩ := h'
  have hcalled := eq_of_mark hlog.distinct (.call caller key) (hsub.subset List.mem_cons_self)
    (hsub'.subset List.mem_cons_self) List.mem_cons_self List.mem_cons_self
  injection hcalled with _ _ hid
  subst hid
  have hrouted := eq_of_mark hlog.distinct (.request caller id)
    (hsub.subset (List.mem_cons_of_mem _ List.mem_cons_self))
    (hsub'.subset (List.mem_cons_of_mem _ List.mem_cons_self)) List.mem_cons_self List.mem_cons_self
  injection hrouted with _ _ _ _ hroute htarget
  subst htarget
  have hinvoked := eq_of_mark hlog.distinct (.passed target service.id)
    (hsub.subset (List.mem_cons_of_mem _ (List.mem_cons_of_mem _ List.mem_cons_self)))
    (hsub'.subset (List.mem_cons_of_mem _ (List.mem_cons_of_mem _ List.mem_cons_self)))
    (List.mem_cons_of_mem _ List.mem_cons_self)
    (hroute ▸ List.mem_cons_of_mem _ List.mem_cons_self)
  injection hinvoked with _ hservice
  exact ⟨rfl, hservice⟩

/-- The number of a route leads back to the request that was routed, and the number of the request
to the call. -/
theorem Coherent.own (hlog : Coherent log) (h : Causes log caller key target service)
    (h' : Causes log caller' key' target service) : caller = caller' ∧ key = key' := by
  obtain ⟨id, cluster, payload, forwarded, content, crew, hsub⟩ := h
  obtain ⟨id', cluster', payload', forwarded', content', crew', hsub'⟩ := h'
  have hrouted := eq_of_mark hlog.distinct (.route service.id)
    (hsub.subset (List.mem_cons_of_mem _ List.mem_cons_self))
    (hsub'.subset (List.mem_cons_of_mem _ List.mem_cons_self))
    (List.mem_cons_of_mem _ List.mem_cons_self) (List.mem_cons_of_mem _ List.mem_cons_self)
  injection hrouted with hcaller hid
  subst hcaller hid
  have hcalled := eq_of_mark hlog.distinct (.number caller id) (hsub.subset List.mem_cons_self)
    (hsub'.subset List.mem_cons_self) (List.mem_cons_of_mem _ List.mem_cons_self)
    (List.mem_cons_of_mem _ List.mem_cons_self)
  injection hcalled with _ hkey
  exact ⟨rfl, hkey⟩

/-- In a coherent log, calls and invocations belong together. -/
theorem correlated_of_coherent (hlog : Coherent log) : Correlated log where
  distinct := hlog.distinct
  caused := by
    intro target service hinvoked
    obtain ⟨errand, rfl, hservice, hserved⟩ := hlog.explained _ hinvoked
    have hroute : errand.route = service.id := congrArg Service.id hservice
    have hpayload : errand.payload = service.payload := congrArg Service.payload hservice
    refine ⟨errand.caller, errand.key, errand.id, errand.cluster, errand.crew, ?_, hserved.2⟩
    have hsub := hserved.1
    rw [hservice, Errand.called, Errand.routed, hroute, hpayload] at hsub
    exact hsub
  once := fun _ _ _ _ _ _ h h' => hlog.once h h'
  own := fun _ _ _ _ _ _ h h' => hlog.own h h'
  answered := by
    intro caller key payload hreturned
    obtain ⟨errand, rfl, rfl, name, hdone⟩ := hlog.explained _ hreturned payload rfl
    have hserved : errand.Served log name := by
      refine ⟨List.Sublist.trans ?_ hdone.1, hdone.2⟩
      exact List.sublist_append_left [errand.called, errand.routed, .invoked _ _] _
    refine ⟨errand.target, errand.service name, hserved.causes, List.Sublist.trans ?_ hdone.1⟩
    exact List.sublist_append_right [errand.called, errand.routed] _

end Causes

namespace Network

/-- In every run of a network of any clients and one relay, calls and invocations of handlers belong
together, as long as no counter hands out more numbers than there are. -/
theorem correlated (host : Host) (options : RelayOptions) (steps : List Step)
    (hroom : ∀ counter, draws counter (start host options) steps ≤ UInt64.size) :
    Correlated (trace (start host options) steps) := by
  have hharmony := (harmony_start host options).run steps fun counter => by
    rw [Nat.zero_add]
    exact hroom counter
  exact correlated_of_coherent hharmony.coherent

/-- A run in which two clients join, and one of them calls the cluster of the other. -/
def answeredRun : List Step :=
  [.connect "caller" "clients" "conn-1" (.new remote),
    .connect "server" "svc" "conn-2" (.new remote),
    .client "caller" (.write 1000), .deliver "caller" 1000, .relay (.readNext 0),
    .relay (.readNext 0),
    .client "server" (.write 1000), .deliver "server" 1000, .relay (.readNext 1),
    .relay (.readNext 1),
    .ship "caller", .client "caller" (.read 1000), .ship "server", .client "server" (.read 1000),
    .client "caller" (.request "svc" ⟨#[1]⟩ (.ofMillis 1000)), .client "caller" (.act .takeItem),
    .client "caller" (.write 1000), .deliver "caller" 1000, .relay (.readNext 0),
    .relay (.readNext 0), .relay (.forward 1), .ship "server", .client "server" (.read 1000),
    .client "server" (.act (.complete 0 (.answered ⟨#[2]⟩))), .client "server" (.act .takeItem),
    .client "server" (.write 1000), .deliver "server" 1000, .relay (.readNext 1),
    .relay (.readNext 1),
    .relay (.forward 0), .ship "caller", .client "caller" (.read 1000), .client "caller" (.poll 0)]

/-- The call is routed, causes one invocation, and returns what that has returned. -/
theorem correlated_of_answeredRun :
    (∀ counter, draws counter (start .loopback {}) answeredRun ≤ UInt64.size) ∧
      trace (start .loopback {}) answeredRun =
        [.called 0 0 ⟨1⟩ "svc" ⟨#[1]⟩, .routed 0 ⟨1⟩ "svc" ⟨#[1]⟩ ⟨1⟩ 1 [1],
          .invoked 1 ⟨0, ⟨1⟩, ⟨#[1]⟩⟩, .completed 1 ⟨0, ⟨1⟩, ⟨#[1]⟩⟩ (.answered ⟨#[2]⟩),
          .returned 0 0 (.ok ⟨#[2]⟩)] ∧
      Correlated (trace (start .loopback {}) answeredRun) :=
  have hroom : ∀ counter, draws counter (start .loopback {}) answeredRun ≤ UInt64.size :=
    fun counter => (draws_le counter _ _).trans (by decide)
  ⟨hroom, by decide +kernel, correlated .loopback {} answeredRun hroom⟩

end Network

end Switchboard
