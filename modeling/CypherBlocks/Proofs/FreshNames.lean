import CypherBlocks.Proofs.Scope

/-!
# Names that are handed out

The names of one request share the number that is taken for it, and each request takes the next
number.  However many requests there are and however they are mixed, no name is handed out twice,
and none of them is the canonical name.
-/

namespace CypherBlocks.Cypher

/-- The letters of the names that a request is for. -/
def NameRequest.letters : NameRequest → List Char
  | .entity => ['n']
  | .pair => ['n', 'p']
  | .target => ['t', 'p']

namespace Names

variable (names : Names) (r : NameRequest)

/-! ## 1. One request -/

theorem chosen_eq : names.chosen r = r.letters.map (numbered · names.number) := by
  cases r with
  | entity => rw [chosen, names.entity_eq]; rfl
  | pair => rw [chosen, names.entity_eq, names.path_eq]; rfl
  | target => rw [chosen, names.target_eq, names.path_eq]; rfl

theorem exists_numbered_of_mem_chosen {v : String} (hv : v ∈ names.chosen r) :
    ∃ letter ∈ ['n', 'p', 't'], v = numbered letter names.number := by
  have hletters : ∀ c ∈ r.letters, c ∈ ['n', 'p', 't'] := by
    cases r <;> simp [NameRequest.letters]
  rw [chosen_eq] at hv
  obtain ⟨letter, hletter, rfl⟩ := List.mem_map.mp hv
  exact ⟨letter, hletters letter hletter, rfl⟩

theorem taken_of_mem_chosen {v : String} (hv : v ∈ names.chosen r) : names.advance.Taken v := by
  obtain ⟨letter, hletter, rfl⟩ := names.exists_numbered_of_mem_chosen r hv
  exact .inr ⟨letter, hletter, names.number, Nat.le_refl _, rfl⟩

theorem not_taken_of_mem_chosen {v : String} (hv : v ∈ names.chosen r) : ¬ names.Taken v := by
  obtain ⟨letter, -, rfl⟩ := names.exists_numbered_of_mem_chosen r hv
  exact names.not_taken_number letter

theorem nodup_chosen : (names.chosen r).Nodup := by
  have hletters : r.letters.Nodup := by cases r <;> decide
  rw [chosen_eq]
  exact List.pairwise_map.mpr (hletters.imp fun hne h => hne (numbered_inj.mp h).1)

/-! ## 2. Many requests -/

/-- The requests get consecutive numbers, from the next one on. -/
theorem askAll_eq (requests : List NameRequest) : names.askAll requests =
    (requests.mapIdx fun i r => r.letters.map (numbered · (names.number + i)),
      ⟨names.count + requests.length⟩) := by
  induction requests generalizing names with
  | nil => rfl
  | cons r rest ih =>
    have hnext : ∀ i, names.advance.number + i = names.number + (i + 1) := by
      intro i
      change names.count + 1 + 1 + i = names.count + 1 + (i + 1)
      omega
    have hcount : names.advance.count + rest.length = names.count + (r :: rest).length := by
      change names.count + 1 + rest.length = names.count + (rest.length + 1)
      omega
    change (names.chosen r :: (names.advance.askAll rest).1, (names.advance.askAll rest).2) = _
    rw [ih, List.mapIdx_cons, chosen_eq, hcount]
    simp only [hnext]
    rfl

/-- The names of all requests differ from each other and from those that were taken before. -/
theorem askAll_new (requests : List NameRequest) :
    (names.askAll requests).1.flatten.Nodup ∧
      ∀ v ∈ (names.askAll requests).1.flatten, ¬ names.Taken v := by
  induction requests generalizing names with
  | nil => exact ⟨List.nodup_nil, by simp [askAll]⟩
  | cons r rest ih =>
    obtain ⟨hdistinct, hnew⟩ := ih names.advance
    change (names.chosen r ++ (names.advance.askAll rest).1.flatten).Nodup ∧
      ∀ v ∈ names.chosen r ++ (names.advance.askAll rest).1.flatten, ¬ names.Taken v
    constructor
    · -- what comes later was not taken even after this request
      refine List.nodup_append.mpr ⟨names.nodup_chosen r, hdistinct, fun v hv w hw heq => ?_⟩
      exact hnew w hw (heq ▸ names.taken_of_mem_chosen r hv)
    · refine List.forall_mem_append.mpr ⟨fun v hv => names.not_taken_of_mem_chosen r hv,
        fun v hv => ?_⟩
      exact fun htaken => hnew v hv htaken.advance

end Names

/-- From a fresh counter on, each request gets its names with its own number, counted from one, and
the counter has counted the requests.  All names of all requests are distinct, and none is the
canonical one. -/
theorem askAll_distinct (requests : List NameRequest) :
    Names.fresh.askAll requests =
        (requests.mapIdx fun i r => r.letters.map (numbered · (i + 1)), ⟨requests.length⟩) ∧
      (Names.fresh.askAll requests).1.flatten.Nodup ∧
      Names.canonical ∉ (Names.fresh.askAll requests).1.flatten := by
  obtain ⟨hdistinct, hnew⟩ := Names.fresh.askAll_new requests
  refine ⟨?_, hdistinct, fun h => hnew _ h (.inl rfl)⟩
  rw [Names.askAll_eq]
  simp [Names.fresh, Names.number, Nat.add_comm]

example :
    Names.fresh.askAll [.pair, .entity, .target] = ([["n1", "p1"], ["n2"], ["t3", "p3"]], ⟨3⟩) := by
  decide +kernel

end CypherBlocks.Cypher
