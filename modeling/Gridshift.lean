import Gridshift.IntervalGrid
import Gridshift.PlanExactness
import Gridshift.PlanEligibility
import Gridshift.Provider
import Gridshift.ScheduleSpec
import Gridshift.Rephase
import Gridshift.Discovery
import Gridshift.RephaseFrame
import Gridshift.Workflow
import Gridshift.Bookkeeping
import Gridshift.PricePool
import Gridshift.PoolWindows
import Gridshift.Firing
import Gridshift.IntervalGuard
import Gridshift.PeriodicTimer
import Gridshift.SingleRun
import Gridshift.ManagedSchedule
import Gridshift.DayProfile
import Gridshift.Postponement
import Gridshift.Interleaving
import Gridshift.SteadySlot
import Gridshift.NextFiring
import Gridshift.CoLocation
import Gridshift.AnsweredPlan
import Gridshift.BackToBack
import Gridshift.LastWrite
import Gridshift.RephaseCompose
import Gridshift.MissingInstant
import Gridshift.ReportedWindows
import Gridshift.Tiling
import Gridshift.FetchPeriod
import Gridshift.NearestRank
import Gridshift.Completion
import Gridshift.MeasureDurations
import Gridshift.DiscoverSchedules
import Gridshift.CompletionOrder
import Gridshift.FirstRun
import Gridshift.Threshold
import Gridshift.GuardMonotone
import Gridshift.Segments
import Gridshift.Tariff
import Gridshift.Machine
import Gridshift.AuthCache
import Gridshift.TariffCache
import Gridshift.StaleRejection
import Gridshift.Simulation
import Gridshift.Register
import Gridshift.UpdateAttempts
import Gridshift.UpdateLinear
import Gridshift.Dispatch
import Gridshift.ClusterRun
import Gridshift.Ledger
import Gridshift.AuthProgress
import Gridshift.Authentications
import Gridshift.FetchProvenance
import Gridshift.PublishedPrices
import Gridshift.Paging
import Gridshift.ListNamespaces
import Gridshift.SharedWindows
import Gridshift.PlanComposition
import Gridshift.LongerPool
import Gridshift.Nights
import Gridshift.Starter
import Gridshift.Async
import Gridshift.OctopusApi
import Gridshift.OctopusSimulation
import Gridshift.OctopusRequests
import Gridshift.OctopusResults
