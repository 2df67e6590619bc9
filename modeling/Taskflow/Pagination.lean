import Taskflow.Queue
import Taskflow.Strconv

/-!
# Paging through jobs (`GET /api/v1/jobs`)

`listJobs` reads `page` and `page_size` from the query with `strconv.Atoi`,
dropping its error, clamps them, and hands them to `ListJobs`, which counts
the matching rows and asks for `LIMIT pageSize OFFSET (page - 1) * pageSize`.
The handler then divides the count into pages. All of it is Go `int`
arithmetic, 64 bits wide.

* `queryPage_range`, `queryPageSize_range`: whatever the query holds,
  `1 ≤ page < 2^63` and `1 ≤ pageSize ≤ 100`;
* `list_jobs_pagination`: the offset is `(page - 1) * pageSize` whenever that
  product is below `2^63`, and the page count is the least number of pages of
  `pageSize` jobs that hold the count, whenever `count + pageSize - 1` is
  below `2^63`;
* `list_jobs_counterexample`: page `2^62 + 1` of size 4 asks for offset 0, and a
  count of `2^63 - 1` gives a negative page count.

The rows the data query returns are not modelled: the count of rows that match
the `status` and `type` filters is an input.
-/

namespace Taskflow

/-- The `page` that `listJobs` reads: `strconv.Atoi`, raised to 1. -/
def Server.queryPage (pageQ : Bytes) : Int :=
  let page := strconv.atoi pageQ
  if page < 1 then 1 else page

/-- The `page_size` that `listJobs` reads: `strconv.Atoi`, and 20 outside
`[1, 100]`. -/
def Server.queryPageSize (pageSizeQ : Bytes) : Int :=
  let pageSize := strconv.atoi pageSizeQ
  if pageSize < 1 ∨ pageSize > 100 then 20 else pageSize

/-- What `ListJobs` reads and asks for: the count of matching rows, and the
`LIMIT` and `OFFSET` of its data query. -/
structure JobsPage where
  total : Int
  limit : Int
  offset : Int
deriving DecidableEq, Repr

/-- `ListJobs`, cut at its two queries. `count` is what `SELECT COUNT(*)` reads
under the filters; the offset is computed in Go's `int`, and PostgreSQL
refuses a negative `OFFSET`. -/
def PostgresStorage.listJobs (count page pageSize : Int) : Except String JobsPage :=
  let offset := RedisQueue.wrap64 (RedisQueue.wrap64 (page - 1) * pageSize)
  if offset < 0 then .error "failed to query jobs: OFFSET must not be negative"
  else .ok ⟨count, pageSize, offset⟩

/-- `ListJobsResponse`, without its jobs. -/
structure ListJobsResponse where
  total : Int
  page : Int
  pageSize : Int
  totalPages : Int
deriving DecidableEq, Repr

/-- `listJobs`: read the query, call `ListJobs`, and divide the count into pages
with Go's `/`, which truncates toward zero. A failing `ListJobs` answers 500. -/
def Server.listJobs (count : Int) (pageQ pageSizeQ : Bytes) :
    Except (Nat × String) ListJobsResponse :=
  let page := Server.queryPage pageQ
  let pageSize := Server.queryPageSize pageSizeQ
  match PostgresStorage.listJobs count page pageSize with
  | .error _ => .error (500, "STORAGE_ERROR")
  | .ok p =>
    let totalPages :=
      Int.tdiv (RedisQueue.wrap64 (RedisQueue.wrap64 (p.total + pageSize) - 1)) pageSize
    .ok ⟨p.total, page, pageSize, totalPages⟩

/-! ## The clamped query -/

theorem Server.queryPage_range (pageQ : Bytes) :
    1 ≤ Server.queryPage pageQ ∧ Server.queryPage pageQ ≤ 9223372036854775807 := by
  have := strconv.parseInt_range pageQ
  dsimp only [Server.queryPage, strconv.atoi]
  split_ifs <;> omega

theorem Server.queryPageSize_range (pageSizeQ : Bytes) :
    1 ≤ Server.queryPageSize pageSizeQ ∧ Server.queryPageSize pageSizeQ ≤ 100 := by
  dsimp only [Server.queryPageSize]
  split_ifs <;> omega

/-- A page size outside `[1, 100]` falls back to the default 20. -/
theorem Server.queryPageSize_default {pageSizeQ : Bytes}
    (h : strconv.atoi pageSizeQ < 1 ∨ 100 < strconv.atoi pageSizeQ) : Server.queryPageSize pageSizeQ = 20 := by
  dsimp only [Server.queryPageSize]
  split_ifs <;> omega

/-! ## Offset and page count -/

theorem PostgresStorage.listJobs_total {count page pageSize : Int} {p : JobsPage}
    (h : PostgresStorage.listJobs count page pageSize = .ok p) : p.total = count := by
  dsimp only [PostgresStorage.listJobs] at h
  split_ifs at h
  cases h
  rfl

/-- While `(page - 1) * pageSize` fits, `ListJobs` asks for exactly that offset. -/
theorem PostgresStorage.listJobs_of_fits {count page pageSize : Int} (h₁ : 1 ≤ page)
    (h₂ : page ≤ 9223372036854775807) (h₃ : 0 ≤ pageSize)
    (h : (page - 1) * pageSize ≤ 9223372036854775807) :
    PostgresStorage.listJobs count page pageSize = .ok ⟨count, pageSize, (page - 1) * pageSize⟩ := by
  have h₀ : 0 ≤ (page - 1) * pageSize := Int.mul_nonneg (by omega) h₃
  unfold PostgresStorage.listJobs
  rw [RedisQueue.wrap64_of_range (z := page - 1) (by omega) (by omega),
    RedisQueue.wrap64_of_range (by omega) (by omega), if_neg (by omega)]

/-- Go's page count: for a count that leaves `count + pageSize - 1` in range,
the least number of pages of `pageSize` jobs that hold `count` jobs. -/
theorem totalPages_ceil {count pageSize : Int} (h₀ : 0 ≤ count) (h₁ : 1 ≤ pageSize)
    (h : count ≤ 9223372036854775808 - pageSize) :
    let totalPages :=
      Int.tdiv (RedisQueue.wrap64 (RedisQueue.wrap64 (count + pageSize) - 1)) pageSize
    (totalPages - 1) * pageSize < count ∧ count ≤ totalPages * pageSize := by
  intro totalPages
  have hn : RedisQueue.wrap64 (RedisQueue.wrap64 (count + pageSize) - 1) = count + pageSize - 1 := by
    rw [RedisQueue.wrap64_sub_one, RedisQueue.wrap64_of_range (by omega) (by omega)]
  have hq : totalPages = (count + pageSize - 1) / pageSize := by
    simp only [totalPages, hn]
    exact Int.tdiv_eq_ediv (by omega) (by omega)
  have hdiv := Int.ediv_add_emod (count + pageSize - 1) pageSize
  have hlo := Int.emod_nonneg (count + pageSize - 1) (b := pageSize) (by omega)
  have hhi := Int.emod_lt_of_pos (count + pageSize - 1) (b := pageSize) (by omega)
  rw [hq, Int.sub_mul, Int.one_mul, Int.mul_comm]
  omega

/-! ## Paging -/

/-- For every query: the page and the page size are clamped, the page size
to 20 when it is out of range; while
`(page - 1) * pageSize` fits in an `int`, `ListJobs` asks for exactly that
offset; and while `count + pageSize - 1` fits, the page count is the least
number of pages of `pageSize` jobs that hold the count. -/
theorem list_jobs_pagination (count : Int) (pageQ pageSizeQ : Bytes) :
    let page := Server.queryPage pageQ
    let pageSize := Server.queryPageSize pageSizeQ
    (1 ≤ page ∧ page ≤ 9223372036854775807 ∧ 1 ≤ pageSize ∧ pageSize ≤ 100 ∧
      (strconv.atoi pageSizeQ < 1 ∨ 100 < strconv.atoi pageSizeQ → pageSize = 20)) ∧
      ((page - 1) * pageSize ≤ 9223372036854775807 →
        PostgresStorage.listJobs count page pageSize = .ok ⟨count, pageSize, (page - 1) * pageSize⟩ ∧
          0 ≤ (page - 1) * pageSize) ∧
      (∀ r, Server.listJobs count pageQ pageSizeQ = .ok r →
        r.total = count ∧ r.page = page ∧ r.pageSize = pageSize ∧
          (0 ≤ count → count ≤ 9223372036854775808 - pageSize →
            (r.totalPages - 1) * pageSize < count ∧ count ≤ r.totalPages * pageSize)) := by
  intro page pageSize
  obtain ⟨hp₁, hp₂⟩ := Server.queryPage_range pageQ
  obtain ⟨hs₁, hs₂⟩ := Server.queryPageSize_range pageSizeQ
  refine ⟨⟨hp₁, hp₂, hs₁, hs₂, Server.queryPageSize_default⟩, fun h => ⟨PostgresStorage.listJobs_of_fits hp₁ hp₂ (by omega) h,
    Int.mul_nonneg (by omega) (by omega)⟩, fun r hr => ?_⟩
  dsimp only [Server.listJobs] at hr
  split at hr
  · cases hr
  · rename_i p hp
    cases hr
    obtain rfl := PostgresStorage.listJobs_total hp
    exact ⟨rfl, rfl, rfl, fun h₀ h => totalPages_ceil h₀ hs₁ h⟩

/-- The second page of 20 jobs out of 45. -/
theorem list_jobs_pagination_second_page :
    (Server.queryPage (bytes "2") - 1) * Server.queryPageSize (bytes "") ≤ 9223372036854775807 ∧
      PostgresStorage.listJobs 45 (Server.queryPage (bytes "2")) (Server.queryPageSize (bytes "")) =
        .ok ⟨45, Server.queryPageSize (bytes ""),
          (Server.queryPage (bytes "2") - 1) * Server.queryPageSize (bytes "")⟩ :=
  ⟨by decide, ((list_jobs_pagination 45 (bytes "2") (bytes "")).2.1 (by decide)).1⟩

/-- Page `2^62 + 1` of 4 jobs asks for offset 0, the first page; and a count of
`2^63 - 1` in pages of 20 gives a negative page count. -/
theorem list_jobs_counterexample :
    Server.queryPage (bytes "4611686018427387905") = 4611686018427387905 ∧
      Server.queryPageSize (bytes "4") = 4 ∧
      PostgresStorage.listJobs 0 4611686018427387905 4 = .ok ⟨0, 4, 0⟩ ∧
      Server.listJobs 9223372036854775807 (bytes "1") (bytes "20") =
        .ok ⟨9223372036854775807, 1, 20, -461168601842738789⟩ := by
  decide

end Taskflow
