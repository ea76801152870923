import CdPraticas.Provenance
import CdPraticas.Sequential
import CdPraticas.Participants
import CdPraticas.Clients
import CdPraticas.Leadership
import CdPraticas.Agreement
import CdPraticas.Copies
import CdPraticas.Convergence
import CdPraticas.Survival
import CdPraticas.Finding
import CdPraticas.Polls
import CdPraticas.Service
import CdPraticas.Answers
import CdPraticas.Consensus
import CdPraticas.FailedSends
import CdPraticas.Followers
import CdPraticas.LateVotes
import CdPraticas.Aborts
import CdPraticas.Coherence
import CdPraticas.Contenders
import CdPraticas.Losers
import CdPraticas.Joining
import CdPraticas.Priorities
import CdPraticas.Thresholds
import CdPraticas.Commuting
import CdPraticas.Handshake
import CdPraticas.HandedOut
import CdPraticas.Overtaken
import CdPraticas.Tolls
import CdPraticas.Warnings
import CdPraticas.ServerList
import CdPraticas.FlowControl
import CdPraticas.Progress
