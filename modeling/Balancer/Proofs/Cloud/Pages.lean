import Balancer.Proofs.Cloud.Client
import Mathlib.Data.List.Infix
import Mathlib.Logic.Function.Iterate

/-!
# Listings that come in pages

A client may give a listing in pages, of which each but the last gives a token by which the next one is asked
for. Whoever goes through them loses nothing and asks for each page once.

* `Table.get?_ofList_flatMap_iff` : in a table of what several pages give, the last page with a key counts;
* `Chain` : pages that hang together; `Listing.calls` : the calls that ask for them;
* `Made g r l n calls s t` : what some checks and calls make of a gate and of clients; `Made.trans` puts
  two rows of them together;
* `run_pages_next`, `run_pages_last`, `run_pages_unchecked`, `run_pages_refused` : one page;
* `pages_front` : pages that are followed by others;
* `Paged` : a listing is all that its pages list, or the first error on the way and nothing is called
  behind it; `paged_allPages`;
* `listings_page_by_page` : so it is for listeners, for resources with some tags and for
  the subnets of a cluster.
-/

namespace Balancer

set_option autoImplicit false

namespace Table

universe u v w
variable {κ : Type u} {β : Type v} {α : Type w} [BEq κ] [EquivBEq κ]

/-- What the second list says of a key counts, if it says anything. -/
theorem get?_ofList_append (es fs : List (κ × β)) (k : κ) :
    (ofList (es ++ fs)).get? k = ((ofList fs).get? k).or ((ofList es).get? k) := by
  simp only [get?_ofList, List.reverse_append, Entries.find?_append]

theorem get?_ofList_flatMap_eq_none_iff {f : α → List (κ × β)} {pages : List α} {k : κ} :
    (ofList (pages.flatMap f)).get? k = none ↔ ∀ page ∈ pages, (ofList (f page)).get? k = none := by
  induction pages with
  | nil => simp [get?_ofList, Entries.find?]
  | cons page pages ih =>
    rw [List.flatMap_cons, get?_ofList_append, Option.or_eq_none_iff, ih, List.forall_mem_cons]
    exact and_comm

/-- The last page that gives something for a key counts. -/
theorem get?_ofList_flatMap_iff {f : α → List (κ × β)} {pages : List α} {k : κ} {x : β} :
    (ofList (pages.flatMap f)).get? k = some x ↔
      ∃ before page after, pages = before ++ page :: after ∧ (ofList (f page)).get? k = some x ∧
        ∀ later ∈ after, (ofList (f later)).get? k = none := by
  induction pages with
  | nil => simp [get?_ofList, Entries.find?]
  | cons page pages ih =>
    rw [List.flatMap_cons, get?_ofList_append, Option.or_eq_some_iff, ih, get?_ofList_flatMap_eq_none_iff]
    constructor
    · rintro (⟨before, page', after, rfl, hx, hafter⟩ | ⟨hnone, hx⟩)
      · exact ⟨page :: before, page', after, rfl, hx, hafter⟩
      · exact ⟨[], page, pages, rfl, hx, hnone⟩
    · rintro ⟨_ | ⟨_, before⟩, page', after, heq, hx, hafter⟩
      · obtain ⟨rfl, rfl⟩ := List.cons.inj heq
        exact .inr ⟨hafter, hx⟩
      · obtain ⟨rfl, rfl⟩ := List.cons.inj heq
        exact .inl ⟨before, page', after, rfl, hx, hafter⟩

end Table

namespace Clients

/-- Pages that hang together: each but the last gives a token, the last gives none. None
of them is a refusal. -/
structure Chain (given : String) (pages : List Fields) : Prop where
  nonempty : pages ≠ []
  continued : ∀ page ∈ pages.dropLast, (Fields.get page given).holds = true
  ended : ∀ page ∈ pages.getLast?, (Fields.get page given).holds = false
  accepted : ∀ page ∈ pages, Entries.find? "client_error" page = none

section

variable {γ α β : Type} {g : Gate γ} {r : Request} {l : Listing β} {s t u : γ × Clients}
  {x : γ} {page : Fields} {front later ps : List Fields} {read : List β} {reads : Fields → List β}
  {made made' : List Call} {token : Value} {e : Error} {n m : Nat}

/-! ## Checks and calls -/

/-- The state of a gate after `n` checks for a request. -/
def checked (g : Gate γ) (r : Request) (n : Nat) (x : γ) : γ := (fun y => (g.allow r y).2)^[n] x

/-- The next `n` checks for a request are passed. -/
def Admits (g : Gate γ) (r : Request) (n : Nat) (x : γ) : Prop :=
  ∀ k < n, (g.allow r (checked g r k x)).1 = .ok ()

theorem admits_succ_iff : Admits g r (n + 1) x ↔ (g.allow r x).1 = .ok () ∧ Admits g r n (g.allow r x).2 := by
  constructor
  · exact fun h => ⟨h 0 (by omega), fun k hk => h (k + 1) (by omega)⟩
  · rintro ⟨hfirst, hothers⟩ (_ | k) hk
    · exact hfirst
    · exact hothers k (by omega)

/-- The call that asks for the page of a token. -/
def Listing.callAt (l : Listing β) (token : Value) : Call := ⟨l.client, l.method, l.paramsAt token⟩

/-- The tokens by which some pages and the one behind them are asked for, if the first is asked
for by the given one. -/
def Listing.tokens (l : Listing β) (token : Value) (ps : List Fields) : List Value :=
  token :: ps.map (Fields.get · l.given)

/-- The calls that ask for some pages in turn: the first without a token, each other with the token
of the page before it. -/
def Listing.calls (l : Listing β) (ps : List Fields) : List Call :=
  ⟨l.client, l.method, l.params⟩ ::
    ps.dropLast.map fun page => ⟨l.client, l.method, l.params ++ [(l.asked, Fields.get page l.given)]⟩

/-- A gate and clients after `n` checks and some calls of a listing, each of which took one of
the prepared answers. -/
structure Made (g : Gate γ) (r : Request) (l : Listing β) (n : Nat) (made : List Call)
    (s t : γ × Clients) : Prop where
  gate : t.1 = checked g r n s.1
  sent : t.2.sent = s.2.sent ++ made
  left : t.2.pending l.client l.method = (s.2.pending l.client l.method).drop made.length

theorem Made.refl (s : γ × Clients) : Made g r l 0 [] s s := ⟨rfl, (List.append_nil _).symm, rfl⟩

theorem Made.trans (h : Made g r l n made s t) (h' : Made g r l m made' t u) :
    Made g r l (n + m) (made ++ made') s u where
  gate := by
    rw [h'.gate, h.gate, Nat.add_comm]
    exact (Function.iterate_add_apply _ m n s.1).symm
  sent := by rw [h'.sent, h.sent, List.append_assoc]
  left := by rw [h'.left, h.left, List.drop_drop, List.length_append]

theorem made_check (s : γ × Clients) : Made g r l 1 [] s ((g.allow r s.1).2, s.2) :=
  ⟨rfl, (List.append_nil _).symm, rfl⟩

theorem made_call (s : γ × Clients) (token : Value) :
    Made g r l 1 [l.callAt token] s ((g.allow r s.1).2, (s.2.send (l.callAt token)).2) where
  gate := rfl
  sent := rfl
  left := by
    rw [pending_send, if_pos ⟨rfl, rfl⟩]
    exact List.drop_one.symm

/-! ## One page -/

theorem nextAnswer_of_served {c : Clients} {client method : String} {answer : Value} {rest : List Value}
    (h : answer :: rest <+: c.pending client method) : c.nextAnswer client method = answer := by
  obtain ⟨others, h⟩ := h
  unfold nextAnswer
  rw [← h]
  rfl

theorem received_object {method : String} (h : Entries.find? "client_error" page = none) :
    received method (.object page) = .ok (.object page) := by
  unfold received
  dsimp only
  rw [h]
  rfl

theorem pages_def (n : Nat) (token : Value) :
    pages g r l n token = call g r l.client l.method (l.paramsAt token) >>= fun page =>
      liftM (l.read page) >>= fun read =>
      match n with
      | 0 => pure read
      | n + 1 => liftM (page.get l.given) >>= fun next =>
        if next.holds then pages g r l n next >>= fun others => pure (read ++ others) else pure read := by
  cases n <;> rfl

theorem run_call_admitted {client method : String} {params : Fields} (h : (g.allow r s.1).1 = .ok ()) :
    (call g r client method params).run s =
      (received method (s.2.nextAnswer client method),
        ((g.allow r s.1).2, (s.2.send ⟨client, method, params⟩).2)) := by
  rw [run_call, h]

/-- A check that is not passed is the end, and nothing is called. -/
theorem run_pages_unchecked (n : Nat) (h : (g.allow r s.1).1 = .error e) :
    (pages g r l n token).run s = (.error e, ((g.allow r s.1).2, s.2)) := by
  rw [pages_def, run_bind, run_call, h]

/-- A call that is refused is the end. -/
theorem run_pages_refused (n : Nat) (hadmitted : (g.allow r s.1).1 = .ok ())
    (h : received l.method (s.2.nextAnswer l.client l.method) = .error e) :
    (pages g r l n token).run s = (.error e, ((g.allow r s.1).2, (s.2.send (l.callAt token)).2)) := by
  rw [pages_def, run_bind, run_call_admitted hadmitted, h]
  rfl

/-- What comes of a listing with some more in front of it. -/
def prepend (read : List β) (z : Except Error (List β) × γ × Clients) : Except Error (List β) × γ × Clients :=
  (z.1.map (read ++ ·), z.2)

theorem prepend_nil (z : Except Error (List β) × γ × Clients) : prepend [] z = z := by
  obtain ⟨_ | _, _⟩ := z <;> rfl

theorem prepend_prepend (read read' : List β) (z : Except Error (List β) × γ × Clients) :
    prepend read (prepend read' z) = prepend (read ++ read') z := by
  obtain ⟨_ | _, _⟩ := z <;> simp [prepend, Except.map]

/-- A page is called for and read, and goes on as it says. -/
theorem run_pages_read (n : Nat) (hadmitted : (g.allow r s.1).1 = .ok ())
    (hreceived : received l.method (s.2.nextAnswer l.client l.method) = .ok (.object page))
    (hread : l.read (.object page) = .ok read) :
    (pages g r l (n + 1) token).run s =
      (if (Fields.get page l.given).holds then pages g r l n (Fields.get page l.given) >>=
        fun others => pure (read ++ others)
        else pure read : Wire γ (List β)).run ((g.allow r s.1).2, (s.2.send (l.callAt token)).2) := by
  rw [pages_def, run_bind, run_call_admitted hadmitted, hreceived]
  dsimp only
  rw [run_bind, run_lift, hread]
  dsimp only
  rw [run_bind, run_lift]
  rfl

/-- A page that gives no token is the last. -/
theorem run_pages_last (n : Nat) (hadmitted : (g.allow r s.1).1 = .ok ())
    (hreceived : received l.method (s.2.nextAnswer l.client l.method) = .ok (.object page))
    (hread : l.read (.object page) = .ok read) (hend : (Fields.get page l.given).holds = false) :
    (pages g r l (n + 1) token).run s = (.ok read, ((g.allow r s.1).2, (s.2.send (l.callAt token)).2)) := by
  rw [run_pages_read n hadmitted hreceived hread, hend]
  rfl

/-- After a page that gives a token come the others. -/
theorem run_pages_next (n : Nat) (hadmitted : (g.allow r s.1).1 = .ok ())
    (hreceived : received l.method (s.2.nextAnswer l.client l.method) = .ok (.object page))
    (hread : l.read (.object page) = .ok read) (hnext : (Fields.get page l.given).holds = true) :
    (pages g r l (n + 1) token).run s = prepend read ((pages g r l n (Fields.get page l.given)).run
      ((g.allow r s.1).2, (s.2.send (l.callAt token)).2)) := by
  rw [run_pages_read n hadmitted hreceived hread, if_pos hnext, run_bind]
  cases (pages g r l n (Fields.get page l.given)).run ((g.allow r s.1).2, (s.2.send (l.callAt token)).2) with
  | mk result t => cases result <;> rfl

/-! ## Several pages -/

/-- Pages that all give a token are called for one after the other, each with the token of the one before it,
and what they list stands in front of the rest. -/
theorem pages_front (haccepted : ∀ page ∈ front, Entries.find? "client_error" page = none)
    (hread : ∀ page ∈ front, l.read (.object page) = .ok (reads page))
    (hnext : ∀ page ∈ front, (Fields.get page l.given).holds = true)
    (hserved : front.map .object <+: s.2.pending l.client l.method)
    (hadmits : Admits g r front.length s.1) (n : Nat) (token : Value) :
    ∃ t, Made g r l front.length ((l.tokens token front).dropLast.map l.callAt) s t ∧
      (pages g r l (front.length + n) token).run s =
        prepend (front.flatMap reads) ((pages g r l n ((l.tokens token front).getLastD .null)).run t) := by
  -- The token of the first page is what the pages behind it start with, so it varies in the
  -- induction as the clients do.
  induction front generalizing s token with
  | nil =>
    refine ⟨s, Made.refl s, ?_⟩
    rw [List.length_nil, Nat.zero_add, List.flatMap_nil, prepend_nil]
    rfl
  | cons page front ih =>
    obtain ⟨haccepted, hacceptedLater⟩ := List.forall_mem_cons.1 haccepted
    obtain ⟨hread, hreadLater⟩ := List.forall_mem_cons.1 hread
    obtain ⟨hnext, hnextLater⟩ := List.forall_mem_cons.1 hnext
    obtain ⟨hadmitted, hadmitsLater⟩ := admits_succ_iff.1 hadmits
    have hmade : Made g r l 1 [l.callAt token] s ((g.allow r s.1).2, (s.2.send (l.callAt token)).2) :=
      made_call s token
    have hservedLater : front.map .object <+: (s.2.send (l.callAt token)).2.pending l.client l.method := by
      rw [hmade.left]
      exact hserved.drop 1
    have hreceived : received l.method (s.2.nextAnswer l.client l.method) = .ok (.object page) := by
      rw [nextAnswer_of_served hserved]
      exact received_object haccepted
    obtain ⟨t, ht, hrun⟩ :=
      ih (s := ((g.allow r s.1).2, (s.2.send (l.callAt token)).2)) hacceptedLater hreadLater hnextLater
      hservedLater hadmitsLater (Fields.get page l.given)
    refine ⟨t, ?_, ?_⟩
    · rw [List.length_cons, Nat.add_comm]
      exact hmade.trans ht
    · rw [List.length_cons, Nat.add_right_comm, run_pages_next _ hadmitted hreceived hread hnext,
        hrun, prepend_prepend, List.flatMap_cons]
      rfl

/-- What comes of a listing whose pages hang together. All of them are called for, one call for each page
behind one check, and what they list is the result. A check that is not passed and a call that is refused are
the end at any page: the error is the result, and the calls are those for the pages in front, and that for the
page itself if its check was passed. -/
structure Paged (g : Gate γ) (r : Request) (l : Listing β) (ps : List Fields) (s : γ × Clients)
    (z : Except Error α × γ × Clients) (good : α → Prop) : Prop where
  length_calls : (l.calls ps).length = ps.length
  complete : ps.map .object <+: s.2.pending l.client l.method → Admits g r ps.length s.1 →
    ∃ a, z.1 = .ok a ∧ good a ∧ Made g r l ps.length (l.calls ps) s z.2
  unchecked : ∀ front page later e, ps = front ++ page :: later →
    front.map .object <+: s.2.pending l.client l.method →
    Admits g r front.length s.1 → (g.allow r (checked g r front.length s.1)).1 = .error e →
    z.1 = .error e ∧ Made g r l (front.length + 1) ((l.calls ps).take front.length) s z.2
  refused : ∀ front page later answer e, ps = front ++ page :: later →
    front.map .object ++ [answer] <+: s.2.pending l.client l.method → Admits g r (front.length + 1) s.1 →
    received l.method answer = .error e →
    z.1 = .error e ∧ Made g r l (front.length + 1) ((l.calls ps).take (front.length + 1)) s z.2

theorem calls_eq (h : Chain l.given ps) : l.calls ps = (l.tokens .null ps.dropLast).map l.callAt := by
  unfold Listing.calls Listing.tokens
  rw [List.map_cons, List.map_map]
  refine congrArg₂ _ rfl (List.map_congr_left fun page hpage => ?_)
  show _ = l.callAt (Fields.get page l.given)
  rw [Listing.callAt, Listing.paramsAt, if_pos (h.continued page hpage)]

theorem length_calls (h : Chain l.given ps) : (l.calls ps).length = ps.length := by
  have hpos : 0 < ps.length := List.length_pos_iff.2 h.nonempty
  simp only [Listing.calls, List.length_cons, List.length_map, List.length_dropLast]
  omega

/-- The pages in front of a page of a chain give tokens. The calls for them are the first of all, then
comes that for the page. -/
theorem Chain.before (h : Chain l.given ps) (hps : ps = front ++ page :: later) :
    (∀ p ∈ front, (Fields.get p l.given).holds = true) ∧
      (l.calls ps).take front.length = (l.tokens .null front).dropLast.map l.callAt ∧
      (l.calls ps).take (front.length + 1) =
        (l.calls ps).take front.length ++ [l.callAt ((l.tokens .null front).getLastD .null)] := by
  have hdropLast : ps.dropLast = front ++ (page :: later).dropLast := by
    rw [hps, List.dropLast_append_cons]
  have hcalls : l.calls ps =
      (l.tokens .null front).map l.callAt ++
        ((page :: later).dropLast.map (Fields.get · l.given)).map l.callAt := by
    rw [calls_eq h, hdropLast, ← List.map_append]
    simp [Listing.tokens]
  have hlength : ((l.tokens .null front).map l.callAt).length = front.length + 1 := by simp [Listing.tokens]
  have htake : (l.calls ps).take front.length = (l.tokens .null front).dropLast.map l.callAt := by
    rw [hcalls, List.take_append_of_le_length (by omega), ← List.map_take, List.dropLast_eq_take]
    simp [Listing.tokens]
  refine ⟨fun p hp => h.continued p (hdropLast ▸ List.mem_append_left _ hp), htake, ?_⟩
  have hne : l.tokens .null front ≠ [] := List.cons_ne_nil _ _
  rw [htake, hcalls, List.take_left' hlength, ← List.map_singleton, ← List.map_append]
  congr 1
  rw [List.getLastD_eq_getLast?, List.getLast?_eq_some_getLast hne, Option.getD_some,
    List.dropLast_concat_getLast]

/-- Whatever is prepared behind the answers that were taken is what is there. -/
theorem Made.prepared {taken rest : List Value} (h : Made g r l n made s t)
    (hlength : made.length = taken.length) (hserved : taken ++ rest <+: s.2.pending l.client l.method) :
    rest <+: t.2.pending l.client l.method := by
  have hdrop := hserved.drop taken.length
  rw [List.drop_left] at hdrop
  rw [h.left, hlength]
  exact hdrop

/-- Once the pages in front of a page are there, what becomes of a listing is up to the
page and those behind it. -/
theorem allPages_front {rest : List Value} (hchain : Chain l.given ps)
    (hread : ∀ page ∈ ps, l.read (.object page) = .ok (reads page)) (hps : ps = front ++ page :: later)
    (hserved : front.map .object ++ rest <+: s.2.pending l.client l.method)
    (hadmits : Admits g r front.length s.1) :
    ∃ t, Made g r l front.length ((l.calls ps).take front.length) s t ∧
      rest <+: t.2.pending l.client l.method ∧
      (allPages g r l).run s = prepend (front.flatMap reads)
        ((pages g r l (t.2.pending l.client l.method).length
        ((l.tokens .null front).getLastD .null)).run t) := by
  obtain ⟨hnext, htake, -⟩ := hchain.before hps
  have hmem : ∀ p ∈ front, p ∈ ps := fun p hp => hps ▸ List.mem_append_left _ hp
  have hfront : front.map .object <+: s.2.pending l.client l.method := (List.prefix_append _ _).trans hserved
  have hle : front.length ≤ (s.2.pending l.client l.method).length := by simpa using hfront.length_le
  obtain ⟨t, ht, hrun⟩ :=
    pages_front (fun p hp => hchain.accepted p (hmem p hp)) (fun p hp => hread p (hmem p hp)) hnext hfront
    hadmits ((s.2.pending l.client l.method).length - front.length) .null
  have hlength : ((l.tokens .null front).dropLast.map l.callAt).length = front.length := by
    simp [Listing.tokens]
  rw [Nat.add_sub_cancel' hle] at hrun
  refine ⟨t, htake ▸ ht, ht.prepared (by simpa using hlength) hserved, ?_⟩
  rw [ht.left, List.length_drop, hlength]
  exact hrun

/-- A listing whose pages can be read is all that they list. -/
theorem paged_allPages (hchain : Chain l.given ps)
    (hread : ∀ page ∈ ps, l.read (.object page) = .ok (reads page)) :
    Paged g r l ps s ((allPages g r l).run s) (· = ps.flatMap reads) where
  length_calls := length_calls hchain
  complete := by
    intro hserved hadmits
    obtain ⟨front, last, hps⟩ : ∃ front last, ps = front ++ [last] :=
      ⟨_, _, (List.dropLast_concat_getLast hchain.nonempty).symm⟩
    have hlength : ps.length = front.length + 1 := by simp [hps]
    have hlast : last ∈ ps := by simp [hps]
    have hserved : front.map .object ++ [.object last] <+: s.2.pending l.client l.method := by
      simpa [hps] using hserved
    have hend : (Fields.get last l.given).holds = false := hchain.ended last (by simp [hps])
    obtain ⟨t, ht, hnext, hrun⟩ := allPages_front hchain hread hps hserved fun k hk => hadmits k (by omega)
    obtain ⟨m, hm⟩ : ∃ m, (t.2.pending l.client l.method).length = m + 1 :=
      ⟨_, (Nat.sub_add_cancel hnext.length_le).symm⟩
    have hadmitted : (g.allow r t.1).1 = .ok () := by
      rw [ht.gate]
      exact hadmits _ (by omega)
    have hreceived : received l.method (t.2.nextAnswer l.client l.method) = .ok (.object last) := by
      rw [nextAnswer_of_served hnext]
      exact received_object (hchain.accepted last hlast)
    rw [hrun, hm, run_pages_last m hadmitted hreceived (hread last hlast) hend]
    refine ⟨_, rfl, by simp [hps], ?_⟩
    have hmade := ht.trans (made_call t ((l.tokens .null front).getLastD .null))
    rw [← (hchain.before hps).2.2, List.take_of_length_le (by rw [length_calls hchain, hlength]),
      ← hlength] at hmade
    exact hmade
  unchecked := by
    intro front page later e hps hserved hadmits herror
    have hserved : front.map .object ++ [] <+: s.2.pending l.client l.method := by rwa [List.append_nil]
    obtain ⟨t, ht, -, hrun⟩ := allPages_front hchain hread hps hserved hadmits
    rw [hrun, run_pages_unchecked _ (by rw [ht.gate, herror])]
    refine ⟨rfl, ?_⟩
    have hmade := ht.trans (made_check t)
    rw [List.append_nil] at hmade
    exact hmade
  refused := by
    intro front page later answer e hps hserved hadmits herror
    obtain ⟨t, ht, hnext, hrun⟩ := allPages_front hchain hread hps hserved fun k hk => hadmits k (by omega)
    have hadmitted : (g.allow r t.1).1 = .ok () := by
      rw [ht.gate]
      exact hadmits _ (by omega)
    rw [hrun, run_pages_refused _ hadmitted (by rw [nextAnswer_of_served hnext, herror])]
    refine ⟨rfl, ?_⟩
    rw [(hchain.before hps).2.2]
    exact ht.trans (made_call t _)

theorem Paged.map {β' : Type} {z : Except Error α × γ × Clients} {good : α → Prop}
    {good' : β' → Prop} {f : α → β'} (h : Paged g r l ps s z good) (hgood : ∀ a, good a → good' (f a)) :
    Paged g r l ps s (z.1.map f, z.2) good' where
  length_calls := h.length_calls
  complete := by
    intro hserved hadmits
    obtain ⟨a, ha, hgood', hmade⟩ := h.complete hserved hadmits
    exact ⟨f a, by rw [ha]; rfl, hgood a hgood', hmade⟩
  unchecked := by
    intro front page later e hps hserved hadmits herror
    obtain ⟨hresult, hmade⟩ := h.unchecked front page later e hps hserved hadmits herror
    exact ⟨by rw [hresult]; rfl, hmade⟩
  refused := by
    intro front page later answer e hps hserved hadmits herror
    obtain ⟨hresult, hmade⟩ := h.refused front page later answer e hps hserved hadmits herror
    exact ⟨by rw [hresult]; rfl, hmade⟩

/-! ## What a page lists -/

/-- An object lists some values under a name: a list of them, or nothing if there are none. -/
inductive Lists (k : String) (fields : Fields) : List Value → Prop
  | nothing : (Fields.get fields k).holds = false → Lists k fields []
  | list {vs : List Value} : Fields.get fields k = .list vs → Lists k fields vs

theorem Lists.elementsIfAny {k : String} {fields : Fields} {vs : List Value} (h : Lists k fields vs) :
    (Fields.get fields k).elementsIfAny = .ok vs := by
  unfold Value.elementsIfAny
  cases h with
  | nothing h => rw [if_neg (by simp [h])]
  | list h =>
    rw [h]
    cases vs <;> rfl

theorem Lists.part {k : String} {vs : List Value} (h : Lists k page vs) :
    part (.object page) k = .ok vs := h.elementsIfAny

/-- A resource and its tags. -/
structure Resource where
  arn : String
  tags : List (String × Value)

namespace Resource

def entry (a : Resource) : Key × Labels := (.text a.arn, .ofList (a.tags.map fun t => (.text t.1, t.2)))

/-- What describes a resource: its ARN and its tags, if it has any. -/
def Describes (a : Resource) (v : Value) : Prop :=
  ∃ fields vs, v = .object fields ∧ Fields.item fields "ResourceARN" = .ok (.text a.arn) ∧
    Lists "Tags" fields vs ∧
    List.Forall₂ (fun t tag => tag.item "Key" = .ok (.text t.1) ∧ tag.item "Value" = .ok t.2) a.tags vs

theorem mapping_of_describes {a : Resource} {v : Value} (h : a.Describes v) : mapping v = .ok a.entry := by
  obtain ⟨fields, vs, rfl, harn, hlists, htags⟩ := h
  have hread : vs.mapM readTag = .ok (a.tags.map fun t => (.text t.1, t.2)) := by
    refine mapM_eq_ok_iff.2 (List.forall₂_map_right_iff.2 (htags.flip.imp fun tag t ht => ?_))
    exact bind_eq_ok_iff.2 ⟨_, ht.1, bind_eq_ok_iff.2 ⟨_, ht.2, rfl⟩⟩
  have hlabels : readTags (Fields.get fields "Tags") = .ok (.ofList (a.tags.map fun t => (.text t.1, t.2))) :=
    bind_eq_ok_iff.2 ⟨_, hlists.elementsIfAny, bind_eq_ok_iff.2 ⟨_, hread, rfl⟩⟩
  exact bind_eq_ok_iff.2 ⟨_, rfl, bind_eq_ok_iff.2 ⟨_, hlabels, bind_eq_ok_iff.2 ⟨_, harn, rfl⟩⟩⟩

/-- The table of the resources of a page. -/
def table (as : List Resource) : Table Key Labels := .ofList (as.map entry)

end Resource

/-- A page describes some resources. -/
def ListsResources (page : Fields) (as : List Resource) : Prop :=
  ∃ vs, Lists "ResourceTagMappingList" page vs ∧ List.Forall₂ Resource.Describes as vs

/-- The resources of all pages: each with the tags that the last page with it gives. -/
def IsUnion (ps : List Fields) (listed : Fields → List Resource) (table : Table Key Labels) : Prop :=
  ∀ arn labels, table.get? arn = some labels ↔
    ∃ before page after, ps = before ++ page :: after ∧
      (Resource.table (listed page)).get? arn = some labels ∧
      ∀ later ∈ after, (Resource.table (listed later)).get? arn = none

/-! ## The listings -/

/-- The listeners of a load balancer. -/
def listenerPages (lb : Value) : Listing Value where
  client := "elbv2"
  method := "describe_listeners"
  params := [("LoadBalancerArn", lb)]
  asked := "Marker"
  given := "NextMarker"
  read := (part · "Listeners")

/-- The resources of a type that satisfy some conditions on their tags. -/
def resourcePages (filters : List Value) (type : Value) : Listing (Key × Labels) where
  client := "tagging"
  method := "get_resources"
  params := [("TagFilters", .list filters), ("ResourceTypeFilters", .list [type])]
  asked := "PaginationToken"
  given := "PaginationToken"
  read := fun page => do (← part page "ResourceTagMappingList").mapM mapping

theorem read_resourcePages {filters : List Value} {type : Value} {as : List Resource}
    (h : ListsResources page as) :
    (resourcePages filters type).read (.object page) = .ok (as.map Resource.entry) := by
  obtain ⟨vs, hlists, hdescribed⟩ := h
  refine bind_eq_ok_iff.2 ⟨vs, hlists.part, mapM_eq_ok_iff.2 ?_⟩
  exact List.forall₂_map_right_iff.2 (hdescribed.flip.imp fun v a ha => Resource.mapping_of_describes ha)

theorem run_resources (filters : List Value) (type : Value) :
    (resources g r filters type).run s =
      (((allPages g r (resourcePages filters type)).run s).1.map .ofList,
        ((allPages g r (resourcePages filters type)).run s).2) := by
  have hdef : resources g r filters type =
      allPages g r (resourcePages filters type) >>= fun entries => pure (.ofList entries) := rfl
  rw [hdef, run_bind]
  cases (allPages g r (resourcePages filters type)).run s with
  | mk result t => cases result <;> rfl

theorem paged_resources {listed : Fields → List Resource} (hchain : Chain "PaginationToken" ps)
    (hlisted : ∀ page ∈ ps, ListsResources page (listed page)) (filters : List Value) (type : Value) :
    Paged g r (resourcePages filters type) ps s ((resources g r filters type).run s) (IsUnion ps listed) := by
  have hread : ∀ page ∈ ps, (resourcePages filters type).read (.object page) =
      .ok ((listed page).map Resource.entry) :=
    fun page hpage => read_resourcePages (hlisted page hpage)
  rw [run_resources]
  refine (paged_allPages hchain hread).map fun entries hentries arn labels => ?_
  rw [hentries]
  exact Table.get?_ofList_flatMap_iff

/-- The conditions that a resource carries each of some tags. -/
def tagFilters (tags : Fields) : List Value := (Entries.sorted tags).map fun e => tagFilter (.text e.1) [e.2]

/-- The conditions that a subnet is owned by a cluster or shared with it. -/
def clusterFilters (key : Value) : List Value := [tagFilter key [.text "owned", .text "shared"]]

/-- Listeners are those of all pages in turn, and resources the union of those of all pages. Every
page is asked for once behind a check, each but the first with the token of the page before it. The
first error is the end. -/
theorem listings_page_by_page (g : Gate γ) (s : γ × Clients) :
    (∀ (lb : Value) (pages : List Fields) (listed : Fields → List Value), Chain "NextMarker" pages →
      (∀ page ∈ pages, Lists "Listeners" page (listed page)) →
      Paged g (.listeners lb) (listenerPages lb) pages s ((cloud g).perform (.listeners lb) s)
        (· = pages.flatMap listed)) ∧
    ∀ (pages : List Fields) (listed : Fields → List Resource), Chain "PaginationToken" pages →
      (∀ page ∈ pages, ListsResources page (listed page)) →
      (∀ (tags : Fields) (type : Value),
        Paged g (.resourcesTagged (.object tags) type) (resourcePages (tagFilters tags) type) pages s
          ((cloud g).perform (.resourcesTagged (.object tags) type) s) (IsUnion pages listed)) ∧
      ∀ key : Value, Paged g (.clusterSubnets key)
        (resourcePages (clusterFilters key) (.text subnetType)) pages s
        ((cloud g).perform (.clusterSubnets key) s) (IsUnion pages listed) := by
  refine ⟨fun lb pages listed hchain hlisted => ?_,
    fun pages listed hchain hlisted => ⟨fun tags type => ?_, fun key => ?_⟩⟩
  · exact paged_allPages hchain fun page hpage => (hlisted page hpage).part
  · exact paged_resources hchain hlisted (tagFilters tags) type
  · exact paged_resources hchain hlisted (clusterFilters key) (.text subnetType)

end

/-- A page that lists a listener on a port. -/
def listenerPage (port : Int) (token : String) : Fields :=
  [("Listeners", .list [.object [("Port", .int port)]]), ("NextMarker", .text token)]

/-- The listener that such a page lists, which is on port 80 as long as there are more pages. -/
def listenersOf (page : Fields) : List Value :=
  [.object [("Port", .int (if (Fields.get page "NextMarker").holds then 80 else 443))]]

/-- A page that describes a subnet of some zone. -/
def subnetPage (zone token : String) : Fields := [
  ("ResourceTagMappingList", .list [.object [("ResourceARN", .text "subnet/a"),
    ("Tags", .list [.object [("Key", .text "zone"), ("Value", .text zone)]])]]),
  ("PaginationToken", .text token)]

/-- The subnet that such a page describes, which is in the old zone as long as there are more pages. -/
def subnetsOf (page : Fields) : List Resource :=
  [⟨"subnet/a", [("zone", .text (if (Fields.get page "PaginationToken").holds then "old" else "new"))]⟩]

theorem listsResources_subnetPage (zone token : String) :
    ListsResources (subnetPage zone token) [⟨"subnet/a", [("zone", .text zone)]⟩] :=
  ⟨_, .list rfl, .cons ⟨_, _, rfl, rfl, .list rfl, .cons ⟨rfl, rfl⟩ .nil⟩ .nil⟩

/-- An answer that refuses a call. -/
def denied : Value := .object [
  ("client_error",
    .object [("Error", .object [("Code", .text "AccessDenied"), ("Message", .text "denied")])]),
  ("operation_name", .text "GetResources")]

/-- Clients that have some answers about listeners and about resources. -/
def answering (listeners resources : List Value) : Clients where
  answers := .ofList [("elbv2", .ofList [("describe_listeners", listeners)]),
    ("tagging", .ofList [("get_resources", resources)])]

theorem chain_of_two {given token : String} {first last : Fields}
    (hfirst : Fields.get first given = .text token) (htoken : token ≠ "")
    (hlast : Fields.get last given = .text "")
    (haccepted : ∀ page ∈ [first, last], Entries.find? "client_error" page = none) :
    Chain given [first, last] where
  nonempty := List.cons_ne_nil _ _
  continued := by simpa [hfirst, Value.holds] using htoken
  ended := by simp [hlast, Value.holds]
  accepted := haccepted

/-- Listeners come in two pages, and of the tags of a subnet those of the later page count. If that page is
denied, there is nothing but the error. -/
theorem two_pages_listed :
    (∃ t, (cloud Gate.free).perform (.listeners (.text "lb"))
          ((), answering [.object (listenerPage 80 "next"), .object (listenerPage 443 "")] []) =
        (.ok [.object [("Port", .int 80)], .object [("Port", .int 443)]], t) ∧
      t.2.sent = [⟨"elbv2", "describe_listeners", [("LoadBalancerArn", .text "lb")]⟩,
        ⟨"elbv2", "describe_listeners", [("LoadBalancerArn", .text "lb"), ("Marker", .text "next")]⟩]) ∧
    (∃ table, ((cloud Gate.free).perform (.clusterSubnets (.text "owner"))
          ((), answering []
            [.object (subnetPage "old" "next"), .object (subnetPage "new" "")])).1 = .ok table ∧
      table.get? (.text "subnet/a") = some (.ofList [(.text "zone", .text "new")])) ∧
    ((cloud Gate.free).perform (.clusterSubnets (.text "owner"))
      ((), answering [] [.object (subnetPage "old" "next"), denied])).1 =
      .error (.cloud "get_resources" (.text "AccessDenied") (.text "denied")) := by
  have hadmits : ∀ (r : Request) (n : Nat), Admits Gate.free r n () := fun _ _ _ _ => rfl
  have hsubnets : Chain "PaginationToken" [subnetPage "old" "next", subnetPage "new" ""] :=
    chain_of_two rfl (by decide) rfl (by decide)
  have hlisted : ∀ page ∈ [subnetPage "old" "next", subnetPage "new" ""],
      ListsResources page (subnetsOf page) :=
    List.forall_mem_cons.2 ⟨listsResources_subnetPage "old" "next",
      List.forall_mem_cons.2 ⟨listsResources_subnetPage "new" "", nofun⟩⟩
  refine ⟨?_, ?_, ?_⟩
  · have hchain : Chain "NextMarker" [listenerPage 80 "next", listenerPage 443 ""] :=
      chain_of_two rfl (by decide) rfl (by decide)
    obtain ⟨hlisteners, -⟩ := listings_page_by_page Gate.free
      ((), answering [.object (listenerPage 80 "next"), .object (listenerPage 443 "")] [])
    have hpaged := hlisteners (.text "lb") _ listenersOf hchain
      (List.forall_mem_cons.2 ⟨.list rfl, List.forall_mem_cons.2 ⟨.list rfl, nofun⟩⟩)
    obtain ⟨listeners, hresult, rfl, hmade⟩ := hpaged.complete (List.prefix_refl _) (hadmits _ _)
    exact ⟨_, Prod.ext hresult rfl, hmade.sent⟩
  · obtain ⟨-, hresources⟩ := listings_page_by_page Gate.free
      ((), answering [] [.object (subnetPage "old" "next"), .object (subnetPage "new" "")])
    obtain ⟨table, hresult, hunion, -⟩ :=
      ((hresources _ subnetsOf hsubnets hlisted).2 (.text "owner")).complete
        (List.prefix_refl _) (hadmits _ _)
    exact ⟨table, hresult, (hunion _ _).2 ⟨[subnetPage "old" "next"], subnetPage "new" "",
      [], rfl, rfl, by simp⟩⟩
  · obtain ⟨-, hresources⟩ :=
      listings_page_by_page Gate.free ((), answering [] [.object (subnetPage "old" "next"), denied])
    exact (((hresources _ subnetsOf hsubnets hlisted).2 (.text "owner")).refused
      [subnetPage "old" "next"] _ [] denied _ rfl
      (List.prefix_refl _) (hadmits _ _) rfl).1

end Clients

end Balancer
